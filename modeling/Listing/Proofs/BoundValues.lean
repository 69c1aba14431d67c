import Mathlib.Data.List.Basic
import Listing.Proofs.PutEntries
import Listing.Proofs.WrittenConditions

/-!
# Values are bound and never written

Two predicates have the same shape if they differ at most in the values that they compare fields to,
lists of values in their length as well. They become conditions that differ at most in their values
(`Mapping.bare_condition`), so they are refused for the same cause or written in one text, with the
same distinct names for their parameters; the values of the leaves that remain in the text are bound
to these in order (`Mapping.text_eq_of_sameShape`).
-/

set_option autoImplicit false

namespace Listing

open Condition

/-! ## Predicates of one shape -/

/-- The values are tested in one way where a column is compared to them: both are null, both are the
same truth value, or both are neither and compared as they are. -/
inductive Value.TestedAlike : Value → Value → Prop
  | null : TestedAlike .null .null
  | truth (b : Bool) : TestedAlike (.bool b) (.bool b)
  | plain {v w : Value} (hv : isTested v = false) (hw : isTested w = false) : TestedAlike v w

namespace Predicate

mutual

/-- The predicates differ at most in the values they compare fields to: they are leaves that compare
one field in one way, to values tested alike or to lists without null, or groups of one kind with
such parts in order. -/
inductive SameShape : Predicate → Predicate → Prop
  | always : SameShape .always .always
  | equal (f : String) {v w : Value} (h : v.TestedAlike w) : SameShape (.equal f v) (.equal f w)
  | differ (f : String) {v w : Value} (h : v.TestedAlike w) : SameShape (.differ f v) (.differ f w)
  | order (f : String) (op : Comparison) {v w : Value} (h : v.TestedAlike w) :
    SameShape (.order f op v) (.order f op w)
  | like (f : String) (anyCase : Bool) {v w : Value} (h : v.TestedAlike w) :
    SameShape (.like f v anyCase) (.like f w anyCase)
  | unlike (f : String) {v w : Value} (h : v.TestedAlike w) : SameShape (.unlike f v) (.unlike f w)
  | among (f : String) {vs ws : List Value} (hv : .null ∉ vs) (hw : .null ∉ ws) :
    SameShape (.among f vs) (.among f ws)
  | outside (f : String) {vs ws : List Value} (hv : .null ∉ vs) (hw : .null ∉ ws) :
    SameShape (.outside f vs) (.outside f ws)
  | all {ps qs : List Predicate} (h : SameShapes ps qs) : SameShape (.all ps) (.all qs)
  | any {ps qs : List Predicate} (h : SameShapes ps qs) : SameShape (.any ps) (.any qs)
  | foreign (v : Value) : SameShape (.foreign v) (.foreign v)

/-- The lists have one length and predicates of one shape in order. -/
inductive SameShapes : List Predicate → List Predicate → Prop
  | nil : SameShapes [] []
  | cons {p q : Predicate} {ps qs : List Predicate} (h : SameShape p q) (more : SameShapes ps qs) :
    SameShapes (p :: ps) (q :: qs)

end

end Predicate

/-! ## Conditions of predicates of one shape -/

theorem Result.map_bind_congr {α β γ : Type} {g : β → γ} (x : Result α) {f f' : α → Result β}
    (h : ∀ a, (f a).map g = (f' a).map g) : (x >>= f).map g = (x >>= f').map g := by
  cases x with
  | error e => rfl
  | ok a => exact h a

namespace Condition

variable {v w : Value}

theorem bare_equality (c : Column) (negated : Bool) (h : v.TestedAlike w) :
    (equality c negated v).bare = (equality c negated w).bare := by
  have hplain : ∀ {u : Value}, isTested u = false → (equality c negated u).bare =
      relates c (if negated then .differ else .equal) .null := by
    intro u hu
    cases u with
    | null | bool _ => exact absurd hu (by simp [isTested])
    | _ => rfl
  cases h with
  | null | truth _ => rfl
  | plain hv hw => rw [hplain hv, hplain hw]

theorem bare_ordering (c : Column) (op : Comparison) (h : v.TestedAlike w) :
    (ordering c op v).map bare = (ordering c op w).map bare := by
  cases h with
  | null | truth _ => rfl
  | plain hv hw => rw [ordering, ordering, hv, hw]; rfl

theorem bare_pattern (c : Column) (anyCase negated : Bool) (h : v.TestedAlike w) :
    (pattern c v anyCase negated).map bare = (pattern c w anyCase negated).map bare := by
  cases h with
  | null | truth _ => rfl
  | plain hv hw => rw [pattern, pattern, hv, hw]; rfl

theorem bareList_of_not_mem {vs : List Value} (h : .null ∉ vs) : bareList vs = [] := by
  rw [bareList, if_neg]
  intro hnull
  obtain ⟨u, hu, hnull⟩ := List.any_eq_true.1 hnull
  cases u with
  | null => exact h hu
  | _ => exact absurd hnull Bool.false_ne_true

theorem bare_among (c : Column) (negated : Bool) {vs ws : List Value} (hv : .null ∉ vs)
    (hw : .null ∉ ws) : (among c vs negated).bare = (among c ws negated).bare := by
  rw [bare, bare, bareList_of_not_mem hv, bareList_of_not_mem hw]

/-- Groups are the same without the values if their parts are. -/
theorem bare_group (conjunctive : Bool) {x y : Result (List Condition)}
    (h : x.map (List.map bare) = y.map (List.map bare)) :
    (x >>= fun cs => .ok (gather conjunctive cs) : Result Condition).map bare =
      (y >>= fun cs => .ok (gather conjunctive cs) : Result Condition).map bare := by
  have hpart : ∀ z : Result (List Condition),
      (z >>= fun cs => .ok (gather conjunctive cs) : Result Condition).map bare =
        (z.map (List.map bare)).map (gather conjunctive) := by
    intro z
    cases z with
    | error e => rfl
    | ok cs => exact congrArg Except.ok (bare_gather cs)
  rw [hpart, hpart, h]

/-- Conditions are read in order, so they are the same without the values if the first is and the
others are. -/
theorem bare_cons {x y : Result Condition} {xs ys : Result (List Condition)}
    (h : x.map bare = y.map bare) (more : xs.map (List.map bare) = ys.map (List.map bare)) :
    (do return (← x) :: (← xs) : Result (List Condition)).map (List.map bare) =
      (do return (← y) :: (← ys) : Result (List Condition)).map (List.map bare) := by
  have hpart : ∀ (z : Result Condition) (zs : Result (List Condition)),
      (do return (← z) :: (← zs) : Result (List Condition)).map (List.map bare) =
        (do return (← z.map bare) :: (← zs.map (List.map bare)) : Result (List Condition)) := by
    intro z zs
    cases z <;> cases zs <;> rfl
  rw [hpart, hpart, h, more]

end Condition

namespace Mapping

mutual

/-- **Predicates of one shape become the same condition but for its values**, or are refused for the
same cause. -/
theorem bare_condition (m : Mapping) {p q : Predicate} : p.SameShape q →
    (m.condition p).map bare = (m.condition q).map bare
  | .always => rfl
  | .equal f h => Result.map_bind_congr (m.column f) fun c =>
      congrArg Except.ok (bare_equality c false h)
  | .differ f h => Result.map_bind_congr (m.column f) fun c =>
      congrArg Except.ok (bare_equality c true h)
  | .order f op h => Result.map_bind_congr (m.column f) fun c => bare_ordering c op h
  | .like f anyCase h => Result.map_bind_congr (m.column f) fun c => bare_pattern c anyCase false h
  | .unlike f h => Result.map_bind_congr (m.column f) fun c => bare_pattern c false true h
  | .among f hv hw => Result.map_bind_congr (m.column f) fun c =>
      congrArg Except.ok (bare_among c false hv hw)
  | .outside f hv hw => Result.map_bind_congr (m.column f) fun c =>
      congrArg Except.ok (bare_among c true hv hw)
  | .all h => bare_group true (bare_conditions m h)
  | .any h => bare_group false (bare_conditions m h)
  | .foreign v => rfl

theorem bare_conditions (m : Mapping) {ps qs : List Predicate} : Predicate.SameShapes ps qs →
    (m.conditions ps).map (List.map bare) = (m.conditions qs).map (List.map bare)
  | .nil => rfl
  | .cons h more => bare_cons (bare_condition m h) (bare_conditions m more)

end

end Mapping

/-! ## The leaves that remain -/

namespace Predicate

/-- The constant that a predicate stands for in a group: it is the neutral one, or a group without
parts. -/
def constant? : Predicate → Option Bool
  | always => some true
  | all [] => some true
  | any [] => some false
  | _ => none

mutual

/-- The leaves that remain in the text with a value, and what is bound there. A leaf that is
compared to null or to a truth value has no value in the text; a group has no leaves there if one of
its own parts is the constant that decides it. -/
def boundLeaves : Predicate → List (String × Value)
  | equal f v | differ f v | order f _ v | like f v _ | unlike f v => (compared v).map (f, ·)
  | among f vs | outside f vs => (listed vs).map (f, ·)
  | all parts => if parts.any (·.constant? == some false) then [] else boundLeavesOf parts
  | any parts => if parts.any (·.constant? == some true) then [] else boundLeavesOf parts
  | always | foreign _ => []

/-- The leaves of predicates that remain with a value, in order. -/
def boundLeavesOf : List Predicate → List (String × Value)
  | [] => []
  | p :: rest => p.boundLeaves ++ boundLeavesOf rest

end

end Predicate

namespace Mapping

variable {m : Mapping}

/-- The leaf is stored at the place: the column is that of its field, and what is bound is its
value. -/
def StoredAt (m : Mapping) (leaf : String × Value) (place : Column × Value) : Prop :=
  m.column leaf.1 = .ok place.1 ∧ leaf.2 = place.2

/-- A leaf becomes a condition that is no constant and has the values of the leaf in its places. -/
theorem exists_places_of_leaf {p : Predicate} {f : String} {c : Condition}
    (hf : p.leafField? = some f) (h : m.condition p = .ok c) :
    ∃ (a : Column) (vs : List Value), m.column f = .ok a ∧ p.boundLeaves = vs.map (f, ·) ∧
      c.places = vs.map (a, ·) ∧ ∀ b, c.isConstant b = false := by
  cases p with
  | equal g v | differ g v =>
      obtain rfl := Option.some.inj hf
      obtain ⟨a, ha, h⟩ := Result.bind_eq_ok.1 h
      obtain rfl := Except.ok.inj h
      exact ⟨a, compared v, ha, rfl, places_equality a _ v, isConstant_equality a _ v⟩
  | order g op v =>
      obtain rfl := Option.some.inj hf
      obtain ⟨a, ha, h⟩ := Result.bind_eq_ok.1 h
      obtain ⟨hv, rfl⟩ := ordering_eq_ok h
      exact ⟨a, compared v, ha, rfl, by rw [hv]; rfl, fun b => rfl⟩
  | like g v _ | unlike g v =>
      obtain rfl := Option.some.inj hf
      obtain ⟨a, ha, h⟩ := Result.bind_eq_ok.1 h
      obtain ⟨hv, rfl⟩ := pattern_eq_ok h
      exact ⟨a, compared v, ha, rfl, by rw [hv]; rfl, fun b => rfl⟩
  | among g vs | outside g vs =>
      obtain rfl := Option.some.inj hf
      obtain ⟨a, ha, h⟩ := Result.bind_eq_ok.1 h
      obtain rfl := Except.ok.inj h
      exact ⟨a, listed vs, ha, rfl, rfl, fun b => rfl⟩
  | always | all _ | any _ | foreign _ => exact absurd hf nofun

theorem forall₂_storedAt {f : String} {a : Column} (ha : m.column f = .ok a) (vs : List Value) :
    List.Forall₂ m.StoredAt (vs.map (f, ·)) (vs.map (a, ·)) := by
  induction vs with
  | nil => exact .nil
  | cons v vs ih => exact .cons ⟨ha, rfl⟩ ih

theorem forall₂_conditions {ps : List Predicate} {cs : List Condition}
    (h : m.conditions ps = .ok cs) : List.Forall₂ (fun p c => m.condition p = .ok c) ps cs :=
  Result.forall₂_of_readAll m.condition m.conditions rfl (fun _ _ => rfl) h

/-- A thing that is no predicate has no condition. -/
theorem condition_foreign_ne_ok (m : Mapping) (v : Value) (c : Condition) :
    m.condition (.foreign v) ≠ .ok c := by
  rw [condition]
  cases v.quotation <;> exact Result.error_ne_ok _ _

/-- The predicates that stand for constants in a group become those constants. -/
theorem isConstant_condition {p : Predicate} {c : Condition} (b : Bool)
    (h : m.condition p = .ok c) : c.isConstant b = (p.constant? == some b) := by
  have hgroup : ∀ {conjunctive : Bool} {p : Predicate} {ps : List Predicate} {cs : List Condition},
      m.conditions (p :: ps) = .ok cs → (gather conjunctive cs).isConstant b = false := by
    intro conjunctive p ps cs hcs
    refine isConstant_gather b fun hnil => ?_
    rw [hnil] at hcs
    cases forall₂_conditions hcs
  cases p with
  | always =>
      obtain rfl := Except.ok.inj h
      cases b <;> rfl
  | all parts | any parts =>
      obtain ⟨cs, hcs, h⟩ := Result.bind_eq_ok.1 h
      obtain rfl := Except.ok.inj h
      cases parts with
      | nil =>
          obtain rfl := Except.ok.inj hcs
          cases b <;> rfl
      | cons p ps => exact hgroup hcs
  | foreign v => exact absurd h (condition_foreign_ne_ok m v c)
  | _ =>
      obtain ⟨a, vs, -, -, -, hno⟩ := exists_places_of_leaf rfl h
      exact hno b

/-- A constant decides a group of conditions if it decides the group of predicates. -/
theorem any_isConstant {ps : List Predicate} {cs : List Condition} (b : Bool)
    (h : m.conditions ps = .ok cs) : cs.any (isConstant b) = ps.any (·.constant? == some b) := by
  have hall := forall₂_conditions h
  clear h
  induction hall with
  | nil => rfl
  | cons hc _ ih => rw [List.any_cons, List.any_cons, ih, isConstant_condition b hc]

/-- The places of a group are those of its parts, unless a constant decides it. -/
theorem storedAt_group (conjunctive : Bool) {ps : List Predicate} {cs : List Condition}
    (h : m.conditions ps = .ok cs)
    (hparts : List.Forall₂ m.StoredAt (Predicate.boundLeavesOf ps) (cs.flatMap places)) :
    List.Forall₂ m.StoredAt
      (if ps.any (·.constant? == some !conjunctive) then [] else Predicate.boundLeavesOf ps)
      (gather conjunctive cs).places := by
  rw [places_gather, any_isConstant _ h]
  split
  · exact .nil
  · exact hparts

mutual

/-- **The places of a condition are the leaves that remain of its predicate**, in order. -/
theorem places_condition (m : Mapping) : ∀ (p : Predicate) {c : Condition},
    m.condition p = .ok c → List.Forall₂ m.StoredAt p.boundLeaves c.places
  | .all parts, c, h => by
      obtain ⟨cs, hcs, h⟩ := Result.bind_eq_ok.1 h
      obtain rfl := Except.ok.inj h
      exact storedAt_group true hcs (places_conditions m parts hcs)
  | .any parts, c, h => by
      obtain ⟨cs, hcs, h⟩ := Result.bind_eq_ok.1 h
      obtain rfl := Except.ok.inj h
      exact storedAt_group false hcs (places_conditions m parts hcs)
  | .always, c, h => by
      obtain rfl := Except.ok.inj h
      exact .nil
  | .foreign v, c, h => absurd h (condition_foreign_ne_ok m v c)
  | .equal _ _, c, h | .differ _ _, c, h | .order _ _ _, c, h | .like _ _ _, c, h
  | .unlike _ _, c, h | .among _ _, c, h | .outside _ _, c, h => by
      obtain ⟨a, vs, ha, hleaves, hplaces, -⟩ := exists_places_of_leaf rfl h
      rw [hleaves, hplaces]
      exact forall₂_storedAt ha vs

theorem places_conditions (m : Mapping) : ∀ (ps : List Predicate) {cs : List Condition},
    m.conditions ps = .ok cs →
      List.Forall₂ m.StoredAt (Predicate.boundLeavesOf ps) (cs.flatMap places)
  | [], cs, h => by
      obtain rfl := Except.ok.inj h
      exact .nil
  | p :: ps, cs, h => by
      obtain ⟨c, hc, h⟩ := Result.bind_eq_ok.1 h
      obtain ⟨rest, hrest, h⟩ := Result.bind_eq_ok.1 h
      obtain rfl := Except.ok.inj h
      exact List.rel_append (places_condition m p hc) (places_conditions m ps hrest)

end

theorem values_of_storedAt {leaves : List (String × Value)} {places : List (Column × Value)}
    (h : List.Forall₂ m.StoredAt leaves places) : places.map (·.2) = leaves.map (·.2) := by
  induction h with
  | nil => rfl
  | cons hstored _ ih => rw [List.map_cons, List.map_cons, ih, hstored.2]

/-- Predicates of one shape are refused for the same cause, or become the same condition but for its
values. -/
theorem condition_cases (m : Mapping) {p q : Predicate} (h : p.SameShape q) :
    (∃ e, m.condition p = .error e ∧ m.condition q = .error e) ∨
    ∃ c d, m.condition p = .ok c ∧ m.condition q = .ok d ∧ c.bare = d.bare := by
  have hbare := bare_condition m h
  cases hp : m.condition p <;> cases hq : m.condition q <;> rw [hp, hq] at hbare
  case error.error e e' => exact .inl ⟨e, rfl, congrArg _ (Except.error.inj hbare).symm⟩
  case error.ok e d => exact absurd hbare (Result.error_ne_ok _ _)
  case ok.error c e' => exact absurd hbare.symm (Result.error_ne_ok _ _)
  case ok.ok c d => exact .inr ⟨c, d, rfl, rfl, Except.ok.inj hbare⟩

/-- **Values never reach the text.** Predicates of one shape are refused for the same cause or
written in one text on every table, with the same names for the parameters in it. These are pairwise
distinct, so all that is bound is kept under them, and what is bound, in the order of the text, is
what the leaves that remain there compare to. -/
theorem text_eq_of_sameShape (m : Mapping) {p q : Predicate} (h : p.SameShape q) :
    (∃ e, m.condition p = .error e ∧ m.condition q = .error e) ∨
    ∃ c d, m.condition p = .ok c ∧ m.condition q = .ok d ∧
      (∀ table, c.text table = d.text table) ∧
      (∀ table, Piece.names (c.pieces table) = c.parameters.map (·.1)) ∧
      d.parameters.map (·.1) = c.parameters.map (·.1) ∧
      (c.parameters.map (·.1)).Nodup ∧
      Entries.ofList c.parameters = c.parameters ∧ Entries.ofList d.parameters = d.parameters ∧
      c.parameters.map (·.2) = p.boundLeaves.map (·.2) ∧
      d.parameters.map (·.2) = q.boundLeaves.map (·.2) := by
  rcases condition_cases m h with hrefused | ⟨c, d, hc, hd, hbare⟩
  · exact .inl hrefused
  have hnodup : ∀ c : Condition, (c.parameters.map (·.1)).Nodup := by
    intro c
    rw [names_parameters "" c, names_pieces]
    exact nodup_parameterNames
  refine .inr ⟨c, d, hc, hd, fun table => ?_, fun table => (names_parameters table c).symm, ?_,
    hnodup c, Entries.ofList_eq_self_iff.2 (hnodup c), Entries.ofList_eq_self_iff.2 (hnodup d), ?_,
    ?_⟩
  · rw [Condition.text, Condition.text, pieces_eq_of_bare table hbare]
  · rw [names_parameters "" c, names_parameters "" d, pieces_eq_of_bare "" hbare]
  · rw [values_parameters, values_of_storedAt (places_condition m p hc)]
  · rw [values_parameters, values_of_storedAt (places_condition m q hd)]

/-- Entries under a number whose name is like a pattern, or that have a name at all, or whose number
is not among some others. -/
def entriesOf (number pattern : Value) (others : List Value) : Predicate :=
  .all [.equal "id" number, .all [],
    .any [.like "name" pattern true, .differ "name" .null, .outside "id" others]]

theorem text_eq_of_sameShape_entries : ∃ m c d,
    Mapping.make ⟨"entries", [⟨"id", .integer⟩, ⟨"name", .text⟩]⟩ [] = .ok m ∧
    (entriesOf (.int 1) (.text "a%") [.int 2]).SameShape
      (entriesOf (.text "' OR 1=1") (.text ":id_1") []) ∧
    m.condition (entriesOf (.int 1) (.text "a%") [.int 2]) = .ok c ∧
    m.condition (entriesOf (.text "' OR 1=1") (.text ":id_1") []) = .ok d ∧
    (∀ table, c.text table = d.text table) ∧
    (c.parameters.map (·.1)).Nodup ∧
    c.parameters.map (·.2) = [.int 1, .text "a%", .list [.int 2]] ∧
    d.parameters.map (·.2) = [.text "' OR 1=1", .text ":id_1", .list []] := by
  have hshape : (entriesOf (.int 1) (.text "a%") [.int 2]).SameShape
      (entriesOf (.text "' OR 1=1") (.text ":id_1") []) := by
    have hparts : Predicate.SameShapes
        [.like "name" (.text "a%") true, .differ "name" .null, .outside "id" [.int 2]]
        [.like "name" (.text ":id_1") true, .differ "name" .null, .outside "id" []] :=
      .cons (.like "name" true (.plain rfl rfl)) (.cons (.differ "name" .null)
        (.cons (.outside "id" (by simp) (by simp)) .nil))
    exact .all (.cons (.equal "id" (.plain rfl rfl)) (.cons (.all .nil) (.cons (.any hparts) .nil)))
  let m : Mapping := ⟨⟨"entries", [⟨"id", .integer⟩, ⟨"name", .text⟩]⟩,
    [("id", ⟨"id", .integer⟩), ("name", ⟨"name", .text⟩)]⟩
  rcases text_eq_of_sameShape m hshape with
    ⟨e, hp, -⟩ | ⟨c, d, hc, hd, htext, -, -, hnodup, -, -, hvalues, hothers⟩
  · exact absurd hp nofun
  · exact ⟨m, c, d, rfl, hshape, hc, hd, htext, hnodup, hvalues, hothers⟩

end Mapping

end Listing
