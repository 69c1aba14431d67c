import Mathlib.Data.List.Basic
import Listing.Predicate.Evaluate
import Listing.Proofs.KeyOrder
import Listing.Proofs.TracedResult
import Listing.Relational.Store

/-!
# Predicates and the conditions they become

On a tuple of integers and texts, some of them null, the condition that a predicate becomes is true
exactly when the row of the tuple satisfies the predicate (`Mapping.Asks.exists_means`). A predicate
has two truth values and a condition three; at every leaf unknown goes with the rule that null
satisfies no comparison but with null itself, and no group can tell unknown from false
(`Condition.selects_gather`).
-/

set_option autoImplicit false

namespace Listing

/-! ## Cells and values of a column -/

/-- The cell is empty or has an integer or a text, as its column does. -/
inductive Cell.IsOf : ColumnType → Cell → Prop
  | null (type : ColumnType) : IsOf type .null
  | integer (i : Int) : IsOf .integer (.int i)
  | text (s : String) : IsOf .text (.text s)

/-- The value is an integer or a text that a cell of a column can hold. -/
inductive Value.IsOf : ColumnType → Value → Prop
  | integer {i : Int} (h : Cell.isStorable i = true) : IsOf .integer (.int i)
  | text (s : String) : IsOf .text (.text s)

namespace Operand

variable {c : Column} {v : Value} {i : Int}

/-- A statement can carry the operand. -/
def IsCarried (o : Operand) : Prop :=
  ∃ w b, o.conversion.converted o.value = .ok w ∧ w.cell = .ok b

theorem cell_int (h : Cell.isStorable i = true) : (ofValue c (.int i)).cell = .int i := by
  have hbound : (ofValue c (.int i)).bound = .ok (.int i) := if_pos h
  rw [cell, hbound]

theorem cell_text (s : String) : (ofValue c (.text s)).cell = .text s :=
  rfl

theorem isCarried_ofValue (h : v.IsOf c.type) : (ofValue c v).IsCarried := by
  obtain ⟨name, type⟩ := c
  cases h with
  | @integer i h => exact ⟨.int i, .int i, rfl, if_pos h⟩
  | text s => exact ⟨.text s, .text s, rfl, rfl⟩

/-- The values of a list are carried one by one. -/
theorem ofValues_eq {vs : List Value} (h : ∀ v ∈ vs, v.IsOf c.type) :
    ofValues c vs = vs.map (ofValue c) := by
  obtain ⟨name, type⟩ := c
  have hnull : vs.any (·.isNull) = false := by
    rw [List.any_eq_false]
    intro v hv
    cases h v hv <;> exact Bool.false_ne_true
  -- each is taken as it is, and so are all when the first is
  have hplain : ∀ v ∈ vs, Conversion.ofValue type v = .plain := by
    intro v hv
    cases h v hv <;> rfl
  have hfirst : ∀ v ∈ vs, Conversion.ofValues type vs = .plain := by
    intro v hv
    cases vs with
    | nil => exact absurd hv List.not_mem_nil
    | cons w ws => exact hplain w (by simp)
  rw [ofValues, hnull, if_neg Bool.false_ne_true]
  refine List.map_congr_left fun v hv => ?_
  rw [ofValue, hfirst v hv, hplain v hv]

theorem checkConverted_append_of_isCarried {os : List Operand} (h : ∀ o ∈ os, o.IsCarried)
    (rest : List Operand) : checkConverted (os ++ rest) = checkConverted rest := by
  induction os with
  | nil => rfl
  | cons o os ih =>
      obtain ⟨w, b, hw, -⟩ := h o (by simp)
      rw [List.cons_append, checkConverted, hw, Result.ok_bind, ih fun o ho => h o (by simp [ho])]

theorem checkBound_append_of_isCarried {os : List Operand} (h : ∀ o ∈ os, o.IsCarried)
    (rest : List Operand) : checkBound (os ++ rest) = checkBound rest := by
  induction os with
  | nil => rfl
  | cons o os ih =>
      obtain ⟨w, b, hw, hb⟩ := h o (by simp)
      have hbound : o.bound = .ok b := by
        rw [bound, hw, Result.ok_bind, hb]
      rw [List.cons_append, checkBound, hbound, Result.ok_bind, ih fun o ho => h o (by simp [ho])]

theorem check_of_isCarried {os : List Operand} (h : ∀ o ∈ os, o.IsCarried) : check os = .ok () := by
  have hconverted := checkConverted_append_of_isCarried h []
  have hbound := checkBound_append_of_isCarried h []
  rw [List.append_nil] at hconverted hbound
  rw [check, hconverted, hbound]
  rfl

end Operand

namespace Cell

variable {c : Column} {a : Cell} {v : Value}

theorem relates_null (type : ColumnType) (r : Relation) (b : Cell) :
    relates type r .null b = none :=
  rfl

/-- A cell that is not empty relates to a value as the value of the cell is ordered to it. -/
theorem relates_of_isOf (ha : a.IsOf c.type) (hv : v.IsOf c.type) (hnull : a ≠ .null) :
    ∃ o, (∀ r, a.relates c.type r (Operand.ofValue c v).cell = some (r.admits o)) ∧
      (a.value c.type).isNull = false ∧ v.isNull = false ∧
      (a.value c.type).equal v = .ok (Relation.equal.admits o) ∧
      ∀ op, (a.value c.type).compares op v = .ok (op.admits o) := by
  obtain ⟨name, type⟩ := c
  cases hv with
  | @integer i h =>
      cases ha with
      | null => exact absurd rfl hnull
      | integer j =>
          refine ⟨Ord.compare j i, fun r => ?_, rfl, rfl, ?_, fun op => rfl⟩
          · rw [Operand.cell_int h]
            rfl
          · simp [value, Value.equal, Value.equalScalars, Value.number?, Number.equalitySignals,
              Number.isSignaling, Number.compare?, Relation.admits]
  | text s =>
      cases ha with
      | null => exact absurd rfl hnull
      | text t =>
          refine ⟨compareTexts t s, fun r => rfl, rfl, rfl, ?_, fun op => rfl⟩
          have heq : (t == s) = (compareTexts t s == .eq) := by
            rw [Bool.eq_iff_iff, beq_iff_eq, beq_iff_eq, compareTexts_eq_eq]
          simp [value, Value.equal, Value.equalScalars, Value.number?, Relation.admits, heq]

/-- The value of a cell is among values if and only if the cell is, where it is not empty. -/
theorem isAmong_of_isOf (ha : a.IsOf c.type) (hnull : a ≠ .null) {vs : List Value}
    (hvs : ∀ v ∈ vs, v.IsOf c.type) : ∃ b, (a.value c.type).isAmong vs = .ok b ∧
      a.isAmong c.type ((vs.map (Operand.ofValue c)).map (·.cell)) = some b := by
  induction vs with
  | nil => exact ⟨false, rfl, rfl⟩
  | cons v vs ih =>
      obtain ⟨o, hrelates, -, -, hequal, -⟩ := relates_of_isOf ha (hvs v (by simp)) hnull
      obtain ⟨b, hmemory, htable⟩ := ih fun w hw => hvs w (by simp [hw])
      rw [List.map_cons, List.map_cons, isAmong, hrelates, htable, Value.isAmong, hequal,
        Result.ok_bind, hmemory]
      cases Relation.equal.admits o with
      | true => exact ⟨true, rfl, rfl⟩
      | false => exact ⟨b, rfl, by cases b <;> rfl⟩

/-- An empty cell is not known to be among any cells or not, if there are any. -/
theorem isAmong_null (type : ColumnType) : ∀ {bs : List Cell}, bs ≠ [] →
    isAmong type .null bs = none := by
  intro bs
  induction bs with
  | nil => exact fun h => absurd rfl h
  | cons b bs ih =>
      intro _
      rw [isAmong, relates_null]
      cases bs with
      | nil => rfl
      | cons b' bs => rw [ih (List.cons_ne_nil b' bs)]; rfl

end Cell

theorem Value.null_equal {c : Column} {v : Value} (h : v.IsOf c.type) :
    Value.null.equal v = .ok false := by
  obtain ⟨name, type⟩ := c
  cases h <;> simp [equal, equalScalars, number?]

/-- Null is not among integers and texts. -/
theorem Value.null_isAmong {c : Column} {vs : List Value} (h : ∀ v ∈ vs, v.IsOf c.type) :
    Value.null.isAmong vs = .ok false := by
  induction vs with
  | nil => rfl
  | cons v vs ih =>
      rw [isAmong, null_equal (h v (by simp)), Result.ok_bind, ih fun w hw => h w (by simp [hw])]
      rfl

/-! ## Leaves -/

namespace Cell

variable {c : Column} {a : Cell} {v : Value} {vs : List Value}

/-- Only an empty cell has the value null. -/
theorem isNull_value (ha : a.IsOf c.type) : (a.value c.type).isNull = a.isNull := by
  obtain ⟨name, type⟩ := c
  cases ha <;> rfl

theorem equal_null (ha : a.IsOf c.type) : (a.value c.type).equal .null = .ok a.isNull := by
  obtain ⟨name, type⟩ := c
  cases ha <;> simp [value, isNull, Value.equal, Value.equalScalars, Value.number?]

theorem equal_value (ha : a.IsOf c.type) (hv : v.IsOf c.type) : (a.value c.type).equal v =
    .ok (a.relates c.type .equal (Operand.ofValue c v).cell == some true) := by
  by_cases hnull : a = .null
  · rw [hnull, relates_null]
    exact Value.null_equal hv
  · obtain ⟨o, hrelates, -, -, hequal, -⟩ := relates_of_isOf ha hv hnull
    rw [hequal, hrelates]
    cases o <;> rfl

theorem differ_value (ha : a.IsOf c.type) (hv : v.IsOf c.type) :
    Predicate.knownNot (a.value c.type) ((a.value c.type).equal v) =
      .ok (a.relates c.type .differ (Operand.ofValue c v).cell == some true) := by
  by_cases hnull : a = .null
  · rw [hnull, relates_null]
    rfl
  · obtain ⟨o, hrelates, hsome, -, hequal, -⟩ := relates_of_isOf ha hv hnull
    rw [hequal, hrelates, Predicate.knownNot, hsome]
    cases o <;> rfl

theorem compares_value (ha : a.IsOf c.type) (hv : v.IsOf c.type) (op : Comparison) :
    Predicate.comparesKnown op (a.value c.type) v =
      .ok (a.relates c.type (.order op) (Operand.ofValue c v).cell == some true) := by
  by_cases hnull : a = .null
  · rw [hnull, relates_null]
    rfl
  · obtain ⟨o, hrelates, hsome, hsome', -, hcompares⟩ := relates_of_isOf ha hv hnull
    rw [hrelates, Predicate.comparesKnown, hsome, hsome', hcompares, Relation.admits]
    cases op.admits o <;> rfl

/-- The values of some operands, as the cells that they are carried as. -/
def ofOperands (c : Column) (vs : List Value) : List Cell :=
  (vs.map (Operand.ofValue c)).map (·.cell)

theorem isAmong_value (ha : a.IsOf c.type) (hvs : ∀ v ∈ vs, v.IsOf c.type) :
    (a.value c.type).isAmong vs = .ok (a.isAmong c.type (ofOperands c vs) == some true) := by
  by_cases hnull : a = .null
  · rw [hnull]
    refine (Value.null_isAmong hvs).trans ?_
    cases vs with
    | nil => rfl
    | cons v vs => rw [isAmong_null c.type (by simp [ofOperands])]; rfl
  · obtain ⟨b, hmemory, htable⟩ := isAmong_of_isOf ha hnull hvs
    rw [hmemory, ofOperands, htable]
    cases b <;> rfl

theorem outside_value (ha : a.IsOf c.type) (hne : vs ≠ []) (hvs : ∀ v ∈ vs, v.IsOf c.type) :
    Predicate.knownNot (a.value c.type) ((a.value c.type).isAmong vs) =
      .ok (Truth.negate (a.isAmong c.type (ofOperands c vs)) == some true) := by
  by_cases hnull : a = .null
  · rw [hnull, isAmong_null c.type (by simpa [ofOperands] using hne)]
    rfl
  · obtain ⟨b, hmemory, htable⟩ := isAmong_of_isOf ha hnull hvs
    obtain ⟨o, -, hsome, -⟩ := relates_of_isOf ha (hvs _ (List.head_mem hne)) hnull
    rw [hmemory, ofOperands, htable, Predicate.knownNot, hsome]
    cases b <;> rfl

end Cell

/-! ## Groups -/

namespace Condition

variable {t : Tuple} {conjunctive : Bool}

theorem selects_all (parts : List Condition) :
    (truthOfAll t parts == some true) = parts.all (·.selects t) := by
  induction parts with
  | nil => rfl
  | cons c parts ih =>
      rw [truthOfAll, List.all_cons, ← ih, selects]
      rcases c.truthOf t with _ | _ | _ <;> rcases truthOfAll t parts with _ | _ | _ <;> rfl

theorem selects_any (parts : List Condition) :
    (truthOfAny t parts == some true) = parts.any (·.selects t) := by
  induction parts with
  | nil => rfl
  | cons c parts ih =>
      rw [truthOfAny, List.any_cons, ← ih, selects]
      rcases c.truthOf t with _ | _ | _ <;> rcases truthOfAny t parts with _ | _ | _ <;> rfl

/-- All of the parts are selected, or one of them is. -/
def selectsGroup (t : Tuple) (conjunctive : Bool) (parts : List Condition) : Bool :=
  if conjunctive then parts.all (·.selects t) else parts.any (·.selects t)

theorem selects_group (parts : List Condition) :
    (group conjunctive parts).selects t = selectsGroup t conjunctive parts := by
  cases conjunctive
  · exact selects_any parts
  · exact selects_all parts

theorem selectsGroup_eq_iff {parts : List Condition} :
    selectsGroup t conjunctive parts = conjunctive ↔ ∀ c ∈ parts, c.selects t = conjunctive := by
  cases conjunctive <;> simp [selectsGroup]

theorem selects_constant (b : Bool) : (constant b).selects t = b := by
  cases b <;> rfl

theorem selects_settled (b : Bool) : (settled b).selects t = b := by
  cases b <;> rfl

theorem eq_constant_of_isConstant {b : Bool} {c : Condition} (h : c.isConstant b = true) :
    c = constant b := by
  cases c with
  | constant d => rw [beq_iff_eq.1 h]
  | _ => exact absurd h Bool.false_ne_true

/-- What a condition brings into a group stands for the condition there. -/
theorem selects_members (c : Condition) :
    (∀ d ∈ members conjunctive c, d.selects t = conjunctive) ↔ c.selects t = conjunctive := by
  have hsingle : (∀ d ∈ [c], d.selects t = conjunctive) ↔ c.selects t = conjunctive := by
    simp
  cases c with
  | group b parts =>
      rw [members]
      split
      · next heq =>
          obtain rfl := beq_iff_eq.1 heq
          rw [selects_group, selectsGroup_eq_iff]
      · exact hsingle
  | _ => exact hsingle

/-- **Simplifying a group does not change what it selects.** -/
theorem selects_gather (parts : List Condition) :
    (gather conjunctive parts).selects t = selectsGroup t conjunctive parts := by
  -- two truth values agree if they agree in being the one that does not decide the group
  have hbool : ∀ {a b : Bool}, (a = conjunctive ↔ b = conjunctive) → a = b := by
    cases conjunctive <;> decide
  refine hbool ?_
  rw [selectsGroup_eq_iff, gather]
  have hdrop : (∀ c ∈ parts.filter (!isConstant conjunctive ·), c.selects t = conjunctive) ↔
      ∀ c ∈ parts, c.selects t = conjunctive := by
    refine ⟨fun h c hc => ?_, fun h c hc => h c (List.mem_of_mem_filter hc)⟩
    by_cases hconstant : c.isConstant conjunctive = true
    · rw [eq_constant_of_isConstant hconstant, selects_constant]
    · refine h c (List.mem_filter.2 ⟨hc, ?_⟩)
      rw [Bool.eq_false_iff.2 hconstant]
      rfl
  split
  · next hempty =>
      rw [List.isEmpty_iff.1 hempty, selects_constant]
      simp
  split
  · next hdecided =>
      obtain ⟨c, hc, hconstant⟩ := List.any_eq_true.1 hdecided
      obtain rfl := eq_constant_of_isConstant hconstant
      rw [selects_settled]
      have hother : (!conjunctive) ≠ conjunctive := by
        cases conjunctive <;> decide
      exact ⟨fun h => absurd h hother, fun h => (selects_constant _).symm.trans (h _ hc)⟩
  rw [← hdrop]
  split
  · next hnone =>
      rw [selects_settled, hnone]
      simp
  · next c hone =>
      rw [hone]
      simp
  · next rest _ _ =>
      rw [selects_group, selectsGroup_eq_iff, List.forall_mem_flatMap]
      exact forall₂_congr fun c _ => selects_members c

theorem mem_operandsOf {o : Operand} : ∀ {parts : List Condition},
    o ∈ operandsOf parts ↔ ∃ c ∈ parts, o ∈ c.operands := by
  intro parts
  induction parts with
  | nil => simp [operandsOf]
  | cons c parts ih => simp [operandsOf, ih]

/-- What groups have from their parts alone, and constants never, a simplified group has from one of
the parts that it was made of. -/
theorem exists_of_gather {P : Condition → Prop} (hconstant : ∀ b, ¬P (constant b))
    (hsettled : ∀ b, ¬P (settled b)) (hgroup : ∀ b parts, P (group b parts) ↔ ∃ c ∈ parts, P c)
    {parts : List Condition} (h : P (gather conjunctive parts)) : ∃ c ∈ parts, P c := by
  have hkept : ∀ {c : Condition}, c ∈ parts.filter (!isConstant conjunctive ·) → c ∈ parts :=
    List.mem_of_mem_filter
  have hmembers : ∀ {c d : Condition}, d ∈ members conjunctive c → P d → P c := by
    intro c d hd hP
    have hsingle : d ∈ [c] → P c := fun hd => List.mem_singleton.1 hd ▸ hP
    cases c with
    | group b parts =>
        rw [members] at hd
        split at hd
        · exact (hgroup b parts).2 ⟨d, hd, hP⟩
        · exact hsingle hd
    | _ => exact hsingle hd
  rw [gather] at h
  split at h
  · exact absurd h (hconstant _)
  split at h
  · exact absurd h (hsettled _)
  split at h
  · exact absurd h (hsettled _)
  · next c hone => exact ⟨c, hkept (by rw [hone]; simp), h⟩
  · obtain ⟨d, hd, hP⟩ := (hgroup _ _).1 h
    obtain ⟨c, hc, hd⟩ := List.mem_flatMap.1 hd
    exact ⟨c, hkept hc, hmembers hd hP⟩

/-- Simplifying a group adds no operands. -/
theorem mem_operands_gather {o : Operand} {parts : List Condition}
    (h : o ∈ (gather conjunctive parts).operands) : ∃ c ∈ parts, o ∈ c.operands :=
  exists_of_gather (P := fun c => o ∈ c.operands) (fun _ => by simp [operands])
    (fun _ => by simp [operands]) (fun _ _ => by rw [operands, mem_operandsOf]) h

/-! ### Patterns -/

mutual

/-- The condition is a pattern or has one in a part. -/
def hasPattern : Condition → Bool
  | like _ _ _ _ => true
  | group _ parts => havePattern parts
  | _ => false

/-- One of the conditions has a pattern. -/
def havePattern : List Condition → Bool
  | [] => false
  | c :: rest => c.hasPattern || havePattern rest

end

theorem havePattern_iff {parts : List Condition} :
    havePattern parts = true ↔ ∃ c ∈ parts, c.hasPattern = true := by
  induction parts with
  | nil => simp [havePattern]
  | cons c parts ih => simp [havePattern, ih]

theorem hasPattern_gather {parts : List Condition}
    (h : (gather conjunctive parts).hasPattern = true) : ∃ c ∈ parts, c.hasPattern = true :=
  exists_of_gather (P := fun c => c.hasPattern = true) (fun _ => Bool.false_ne_true)
    (fun _ => Bool.false_ne_true) (fun _ _ => by rw [hasPattern, havePattern_iff]) h

mutual

/-- Only patterns are refused. -/
theorem hasPattern_of_refuses : ∀ {c : Condition}, refuses t c = true → c.hasPattern = true := by
  intro c h
  cases c with
  | like c p anyCase negated => rfl
  | group conjunctive parts =>
      rw [hasPattern]
      cases conjunctive with
      | true => exact havePattern_of_refusesAll h
      | false => exact havePattern_of_refusesAny h
  | _ => exact absurd h Bool.false_ne_true

theorem havePattern_of_refusesAll : ∀ {parts : List Condition}, refusesAll t parts = true →
    havePattern parts = true := by
  intro parts h
  cases parts with
  | nil => exact absurd h Bool.false_ne_true
  | cons c rest =>
      rw [refusesAll, Bool.or_eq_true, Bool.and_eq_true] at h
      rw [havePattern, Bool.or_eq_true]
      exact h.imp hasPattern_of_refuses fun h => havePattern_of_refusesAll h.2

theorem havePattern_of_refusesAny : ∀ {parts : List Condition}, refusesAny t parts = true →
    havePattern parts = true := by
  intro parts h
  cases parts with
  | nil => exact absurd h Bool.false_ne_true
  | cons c rest =>
      rw [refusesAny, Bool.or_eq_true, Bool.and_eq_true] at h
      rw [havePattern, Bool.or_eq_true]
      exact h.imp hasPattern_of_refuses fun h => havePattern_of_refusesAny h.2

end

/-- A condition without patterns is refused for no tuples. -/
theorem checkPatterns_of_hasPattern {c : Condition} (h : c.hasPattern = false)
    (tuples : List Tuple) : c.checkPatterns tuples = .ok () := by
  refine if_neg fun hany => ?_
  obtain ⟨u, -, hrefuses⟩ := List.any_eq_true.1 hany
  exact absurd (h.symm.trans (hasPattern_of_refuses hrefuses)) Bool.false_ne_true

end Condition

/-! ## Rows of tuples -/

namespace Mapping

variable {m : Mapping} {t : Tuple}

theorem get?_of_column {field : String} {c : Column} (h : m.column field = .ok c) :
    Entries.get? field m.fields = some c := by
  rw [column] at h
  split at h
  · next heq => rw [heq, Except.ok.inj h]
  · exact absurd h (by simp)

theorem mem_fields_of_column {field : String} {c : Column} (h : m.column field = .ok c) :
    (field, c) ∈ m.fields := by
  have hentries : ∀ fields : List (String × Column), Entries.get? field fields = some c →
      (field, c) ∈ fields := by
    intro fields
    induction fields with
    | nil => exact fun h => absurd h (by simp [Entries.get?])
    | cons entry fields ih =>
        obtain ⟨name, d⟩ := entry
        intro h
        rw [Entries.get?] at h
        split at h
        · next heq =>
            obtain rfl := Option.some.inj h
            rw [heq]
            exact List.mem_cons_self
        · exact List.mem_cons_of_mem _ (ih h)
  exact hentries m.fields (get?_of_column h)

/-- The row of a tuple has the value of the mapped column in a field. -/
theorem field?_rowOf {field : String} {c : Column} (h : m.column field = .ok c) :
    (StoredTable.rowOf m t).field? field = some ((t.cell c).value c.type) := by
  have hentry : ∀ fields : List (String × Column), Entries.get? field fields = some c →
      Value.entryNamed? field ((fields.map fun e => (e.1, (t.cell e.2).value e.2.type)).map
        fun e => (.text e.1, e.2)) = some ((t.cell c).value c.type) := by
    intro fields
    induction fields with
    | nil => exact fun h => absurd h (by simp [Entries.get?])
    | cons entry fields ih =>
        obtain ⟨name, d⟩ := entry
        intro h
        rw [Entries.get?] at h
        rw [List.map_cons, List.map_cons, Value.entryNamed?]
        split
        · next heq =>
            rw [if_pos heq] at h
            rw [Option.some.inj h]
        · next hne =>
            rw [if_neg hne] at h
            exact ih h
  exact hentry m.fields (get?_of_column h)

theorem fieldOrNull_rowOf {field : String} {c : Column} (h : m.column field = .ok c) :
    (StoredTable.rowOf m t).fieldOrNull field = (t.cell c).value c.type := by
  rw [Value.fieldOrNull, field?_rowOf h]
  rfl

/-- The tuple has nothing but integers and texts in the mapped columns, each in a column of its
type, and some of them may be null. -/
def Holds (m : Mapping) (t : Tuple) : Prop :=
  ∀ field c, m.column field = .ok c → (t.cell c).IsOf c.type

/-! ## Predicates -/

/-- The predicate compares mapped fields with values of their columns, with null only for equality,
and is no pattern. -/
inductive Asks (m : Mapping) : Predicate → Prop
  | always : Asks m .always
  | equal {f : String} {c : Column} {v : Value} (hf : m.column f = .ok c)
      (hv : v = .null ∨ v.IsOf c.type) : Asks m (.equal f v)
  | differ {f : String} {c : Column} {v : Value} (hf : m.column f = .ok c)
      (hv : v = .null ∨ v.IsOf c.type) : Asks m (.differ f v)
  | order {f : String} {c : Column} {v : Value} (op : Comparison) (hf : m.column f = .ok c)
      (hv : v.IsOf c.type) : Asks m (.order f op v)
  | among {f : String} {c : Column} {vs : List Value} (hf : m.column f = .ok c) (hne : vs ≠ [])
      (hvs : ∀ v ∈ vs, v.IsOf c.type) : Asks m (.among f vs)
  | outside {f : String} {c : Column} {vs : List Value} (hf : m.column f = .ok c) (hne : vs ≠ [])
      (hvs : ∀ v ∈ vs, v.IsOf c.type) : Asks m (.outside f vs)
  | all {parts : List Predicate} (h : ∀ p ∈ parts, Asks m p) : Asks m (.all parts)
  | any {parts : List Predicate} (h : ∀ p ∈ parts, Asks m p) : Asks m (.any parts)

/-- The condition is what a predicate becomes and selects the tuples whose rows satisfy the
predicate; a statement can carry its operands, and it has no pattern. -/
structure Means (m : Mapping) (p : Predicate) (c : Condition) : Prop where
  compiled : m.condition p = .ok c
  holds : ∀ {t : Tuple}, m.Holds t → p.holds (StoredTable.rowOf m t) = .ok (c.selects t)
  carried : ∀ o ∈ c.operands, o.IsCarried
  plain : c.hasPattern = false

/-- A condition that relates a column to a value has an operand that a statement can carry. -/
theorem carried_relates {c : Column} {v : Value} (hv : v.IsOf c.type) (r : Relation) :
    ∀ o ∈ (Condition.relates c r v).operands, o.IsCarried := by
  intro o ho
  rw [List.mem_singleton.1 ho]
  exact Operand.isCarried_ofValue hv

theorem means_null {f : String} {c : Column} (hf : m.column f = .ok c) :
    m.Means (.equal f .null) (.null c false) ∧ m.Means (.differ f .null) (.null c true) := by
  constructor
  · refine ⟨by rw [condition, hf]; rfl, fun {t} ht => ?_, fun o ho => absurd ho List.not_mem_nil, rfl⟩
    rw [Predicate.holds, fieldOrNull_rowOf hf, Cell.equal_null (ht f c hf), Condition.selects,
      Condition.truthOf]
    cases (t.cell c).isNull <;> rfl
  · refine ⟨by rw [condition, hf]; rfl, fun {t} ht => ?_, fun o ho => absurd ho List.not_mem_nil, rfl⟩
    rw [Predicate.holds, fieldOrNull_rowOf hf, Cell.equal_null (ht f c hf), Predicate.knownNot,
      Cell.isNull_value (ht f c hf), Condition.selects, Condition.truthOf]
    cases (t.cell c).isNull <;> rfl

theorem means_equality {f : String} {c : Column} {v : Value} (hf : m.column f = .ok c)
    (hv : v = .null ∨ v.IsOf c.type) :
    m.Means (.equal f v) (Condition.equality c false v) ∧
      m.Means (.differ f v) (Condition.equality c true v) := by
  rcases hv with rfl | hv
  · exact means_null hf
  have hshape : ∀ negated, Condition.equality c negated v =
      .relates c (if negated then .differ else .equal) v := by
    obtain ⟨name, type⟩ := c
    intro negated
    cases hv <;> rfl
  rw [hshape, hshape]
  constructor
  · refine ⟨by rw [condition, hf, Result.ok_bind, hshape]; rfl, fun {t} ht => ?_,
      carried_relates hv _, rfl⟩
    rw [Predicate.holds, fieldOrNull_rowOf hf, Cell.equal_value (ht f c hf) hv, Condition.selects,
      Condition.truthOf]
    rfl
  · refine ⟨by rw [condition, hf, Result.ok_bind, hshape]; rfl, fun {t} ht => ?_,
      carried_relates hv _, rfl⟩
    rw [Predicate.holds, fieldOrNull_rowOf hf, Cell.differ_value (ht f c hf) hv, Condition.selects,
      Condition.truthOf]
    rfl

theorem means_order {f : String} {c : Column} {v : Value} (op : Comparison)
    (hf : m.column f = .ok c) (hv : v.IsOf c.type) :
    m.Means (.order f op v) (.relates c (.order op) v) := by
  have htested : Condition.isTested v = false := by
    obtain ⟨name, type⟩ := c
    cases hv <;> rfl
  refine ⟨?_, fun {t} ht => ?_, carried_relates hv _, rfl⟩
  · rw [condition, hf, Result.ok_bind, Condition.ordering, htested, if_neg Bool.false_ne_true]
  · rw [Predicate.holds, fieldOrNull_rowOf hf, Cell.compares_value (ht f c hf) hv,
      Condition.selects, Condition.truthOf]

theorem means_among {f : String} {c : Column} {vs : List Value} (hf : m.column f = .ok c)
    (hne : vs ≠ []) (hvs : ∀ v ∈ vs, v.IsOf c.type) :
    m.Means (.among f vs) (.among c vs false) ∧ m.Means (.outside f vs) (.among c vs true) := by
  have hcarried : ∀ negated, ∀ o ∈ (Condition.among c vs negated).operands, o.IsCarried := by
    intro negated o ho
    rw [Condition.operands, Operand.ofValues_eq hvs] at ho
    obtain ⟨v, hv, rfl⟩ := List.mem_map.1 ho
    exact Operand.isCarried_ofValue (hvs v hv)
  constructor
  · refine ⟨by rw [condition, hf]; rfl, fun {t} ht => ?_, hcarried false, rfl⟩
    rw [Predicate.holds, fieldOrNull_rowOf hf, Cell.isAmong_value (ht f c hf) hvs,
      Condition.selects, Condition.truthOf, Operand.ofValues_eq hvs]
    rfl
  · refine ⟨by rw [condition, hf]; rfl, fun {t} ht => ?_, hcarried true, rfl⟩
    rw [Predicate.holds, fieldOrNull_rowOf hf, Cell.outside_value (ht f c hf) hne hvs,
      Condition.selects, Condition.truthOf, Operand.ofValues_eq hvs]
    rfl

/-- Predicates that have conditions are compiled together. -/
theorem exists_conditions {parts : List Predicate} (h : ∀ p ∈ parts, ∃ c, m.Means p c) :
    ∃ cs, m.conditions parts = .ok cs ∧ List.Forall₂ m.Means parts cs := by
  induction parts with
  | nil => exact ⟨[], rfl, .nil⟩
  | cons p parts ih =>
      obtain ⟨c, hc⟩ := h p (by simp)
      obtain ⟨cs, hcs, hmeans⟩ := ih fun q hq => h q (by simp [hq])
      refine ⟨c :: cs, ?_, .cons hc hmeans⟩
      rw [conditions, hc.compiled, hcs]
      rfl

theorem holdsAll_rowOf {parts : List Predicate} {cs : List Condition}
    (h : List.Forall₂ m.Means parts cs) (ht : m.Holds t) :
    Predicate.holdsAll parts (StoredTable.rowOf m t) = .ok (cs.all (·.selects t)) := by
  induction h with
  | nil => rfl
  | @cons p c parts cs hp _ ih =>
      rw [Predicate.holdsAll, hp.holds ht, Result.ok_bind, List.all_cons, ih]
      cases c.selects t <;> rfl

theorem holdsAny_rowOf {parts : List Predicate} {cs : List Condition}
    (h : List.Forall₂ m.Means parts cs) (ht : m.Holds t) :
    Predicate.holdsAny parts (StoredTable.rowOf m t) = .ok (cs.any (·.selects t)) := by
  induction h with
  | nil => rfl
  | @cons p c parts cs hp _ ih =>
      rw [Predicate.holdsAny, hp.holds ht, Result.ok_bind, List.any_cons, ih]
      cases c.selects t <;> rfl

/-- A statement can carry the operands of a group if it can carry those of the parts. -/
theorem carried_gather {parts : List Predicate} {cs : List Condition}
    (h : List.Forall₂ m.Means parts cs) (conjunctive : Bool) :
    ∀ o ∈ (Condition.gather conjunctive cs).operands, o.IsCarried := by
  have hparts : ∀ c ∈ cs, ∀ o ∈ c.operands, o.IsCarried := by
    induction h with
    | nil => exact fun c hc => absurd hc List.not_mem_nil
    | cons hp _ ih => exact List.forall_mem_cons.2 ⟨hp.carried, ih⟩
  intro o ho
  obtain ⟨c, hc, ho⟩ := Condition.mem_operands_gather ho
  exact hparts c hc o ho

theorem plain_gather {parts : List Predicate} {cs : List Condition}
    (h : List.Forall₂ m.Means parts cs) (conjunctive : Bool) :
    (Condition.gather conjunctive cs).hasPattern = false := by
  have hparts : ∀ c ∈ cs, c.hasPattern = false := by
    intro c hc
    obtain ⟨p, -, hp⟩ := exists_of_mem_forall₂ h hc
    exact hp.plain
  rw [← Bool.not_eq_true]
  intro hpattern
  obtain ⟨c, hc, hpattern⟩ := Condition.hasPattern_gather hpattern
  exact absurd ((hparts c hc).symm.trans hpattern) Bool.false_ne_true

/-- **Every predicate that asks for integers and texts has its meaning as a condition.** -/
theorem Asks.exists_means {p : Predicate} (h : m.Asks p) : ∃ c, m.Means p c := by
  induction h with
  | always =>
      refine ⟨.constant true, rfl, fun _ => rfl, fun o ho => absurd ho List.not_mem_nil, rfl⟩
  | equal hf hv => exact ⟨_, (means_equality hf hv).1⟩
  | differ hf hv => exact ⟨_, (means_equality hf hv).2⟩
  | order op hf hv => exact ⟨_, means_order op hf hv⟩
  | among hf hne hvs => exact ⟨_, (means_among hf hne hvs).1⟩
  | outside hf hne hvs => exact ⟨_, (means_among hf hne hvs).2⟩
  | all h ih =>
      obtain ⟨cs, hcs, hmeans⟩ := exists_conditions ih
      refine ⟨.gather true cs, by rw [condition, hcs]; rfl, fun {t} ht => ?_,
        carried_gather hmeans true, plain_gather hmeans true⟩
      rw [Predicate.holds, holdsAll_rowOf hmeans ht, Condition.selects_gather]
      rfl
  | any h ih =>
      obtain ⟨cs, hcs, hmeans⟩ := exists_conditions ih
      refine ⟨.gather false cs, by rw [condition, hcs]; rfl, fun {t} ht => ?_,
        carried_gather hmeans false, plain_gather hmeans false⟩
      rw [Predicate.holds, holdsAny_rowOf hmeans ht, Condition.selects_gather]
      rfl

end Mapping

end Listing
