import Listing.Proofs.NormalForm
import Listing.Proofs.TracedResult

/-!
# Neutral parts and what a normal form keeps

A predicate read with its neutral parts left out says something of a row or nothing at all
(`Predicate.verdict`): the neutral predicate says nothing, a leaf says whether the row satisfies it,
and a group asks those of its parts that say something, from left to right as far as needed. The
normal form holds exactly where the predicate does not say otherwise, with the same faults, and it
holds as the predicate itself does when every disjunction has parts and all of them say something
(`Predicate.exists_normalized`). A disjunction with a part that says nothing is another matter: it
holds of every row, and its normal form does not.
-/

set_option autoImplicit false

namespace Listing.Predicate

/-! ## What a predicate says -/

/-- What a group says after one part: the part decides the group, or the rest is asked. -/
def sayOn (decisive : Bool) (rest : Result (Option Bool)) : Option Bool → Result (Option Bool)
  | none => rest
  | some b => if b = decisive then .ok (some b) else do return some ((← rest).getD b)

mutual

/-- What the predicate says of a row with the neutral parts left out: nothing, or whether the row
satisfies it. -/
def verdict : Predicate → Value → Result (Option Bool)
  | always, _ => .ok none
  | all parts, row => verdictOf false parts row
  | any parts, row => verdictOf true parts row
  | p, row => (p.holds row).map some

/-- What the parts of a group say, from left to right until one decides the group; parts that say
nothing are passed over. -/
def verdictOf (decisive : Bool) : List Predicate → Value → Result (Option Bool)
  | [], _ => .ok none
  | p :: rest, row => p.verdict row >>= sayOn decisive (verdictOf decisive rest row)

end

/-- What comes of asking parts: nothing if there are none. -/
def saidBy (parts : List Predicate) (asked : Result Bool) : Result (Option Bool) :=
  if parts.isEmpty then .ok none else asked.map some

/-- What two lists of parts say together; the second is asked only if the first does not decide. -/
theorem saidBy_append {decisive : Bool} {ps qs : List Predicate} {x y : Result Bool}
    (hps : ps = [] → x = .ok !decisive) (hqs : qs = [] → y = .ok !decisive) :
    saidBy (ps ++ qs) (x >>= fun b => if b = decisive then .ok b else y) =
      saidBy ps x >>= sayOn decisive (saidBy qs y) := by
  cases ps with
  | nil =>
      rw [hps rfl, List.nil_append, Result.ok_bind, if_neg (by cases decisive <;> simp)]
      rfl
  | cons p ps =>
      change Except.map some _ = Except.map some x >>= _
      cases x with
      | error e => rfl
      | ok b =>
          rw [Result.ok_bind]
          change _ = if b = decisive then _ else _
          split
          · rfl
          -- the rest is asked: without parts it says nothing, and the first stands
          · next h => cases qs with
            | nil =>
                rw [hqs rfl]
                cases b <;> cases decisive <;> first | rfl | exact absurd rfl h
            | cons q qs => cases y <;> rfl

mutual

/-- A predicate says what its normal form says, which is nothing if that is neutral. -/
theorem verdict_eq : ∀ (p : Predicate) (row : Value),
    p.verdict row = if p.normal.isAlways then .ok none else (p.normal.holds row).map some
  | all parts, row => by
      rw [verdict, verdictOf_false parts row, saidBy, normal,
        isAlways_groupAll (areNormal_normalConjuncts parts), holds_groupAll]
  | any parts, row => by
      rw [verdict, verdictOf_true parts row, saidBy, normal,
        isAlways_groupAny (areNormal_normalDisjuncts parts)]
      split
      · rfl
      · next hne => rw [holds_groupAny fun h => hne (by rw [h]; rfl)]
  | always, row => rfl
  | equal _ _, row | differ _ _, row | order _ _ _, row | like _ _ _, row | unlike _ _, row
  | among _ _, row | outside _ _, row | foreign _, row => by
      simp [verdict, normal, isAlways]

/-- The parts of a conjunction say what the conjuncts of their normal forms say. -/
theorem verdictOf_false : ∀ (parts : List Predicate) (row : Value),
    verdictOf false parts row =
      saidBy (normalConjuncts parts) (holdsAll (normalConjuncts parts) row)
  | [], row => by
      rw [verdictOf]
      rfl
  | p :: rest, row => by
      have hfirst : p.verdict row =
          saidBy p.normal.conjuncts (holdsAll p.normal.conjuncts row) := by
        rw [verdict_eq p row, saidBy, isEmpty_conjuncts (isNormal_normal p), holdsAll_conjuncts]
      have hasked : holdsAll (p.normal.conjuncts ++ normalConjuncts rest) row =
          holdsAll p.normal.conjuncts row >>= fun b =>
            if b = false then .ok b else holdsAll (normalConjuncts rest) row := by
        rw [holdsAll_append]
        refine bind_congr fun b => ?_
        cases b <;> rfl
      rw [verdictOf, hfirst, verdictOf_false rest row, normalConjuncts, hasked]
      refine (saidBy_append ?_ ?_).symm <;> intro hnil <;> rw [hnil, holdsAll] <;> rfl

/-- The parts of a disjunction say what the disjuncts of their normal forms say. -/
theorem verdictOf_true : ∀ (parts : List Predicate) (row : Value),
    verdictOf true parts row =
      saidBy (normalDisjuncts parts) (holdsAny (normalDisjuncts parts) row)
  | [], row => by
      rw [verdictOf]
      rfl
  | p :: rest, row => by
      have hfirst : p.verdict row =
          saidBy p.normal.disjuncts (holdsAny p.normal.disjuncts row) := by
        rw [verdict_eq p row, saidBy, isEmpty_disjuncts (isNormal_normal p)]
        -- the neutral predicate would hold, but it is not asked
        split
        · rfl
        · next hsays => rw [holdsAny_disjuncts (Bool.eq_false_iff.2 hsays)]
      have hasked : holdsAny (p.normal.disjuncts ++ normalDisjuncts rest) row =
          holdsAny p.normal.disjuncts row >>= fun b =>
            if b = true then .ok b else holdsAny (normalDisjuncts rest) row := by
        rw [holdsAny_append]
        refine bind_congr fun b => ?_
        cases b <;> rfl
      rw [verdictOf, hfirst, verdictOf_true rest row, normalDisjuncts, hasked]
      refine (saidBy_append ?_ ?_).symm <;> intro hnil <;> rw [hnil, holdsAny] <;> rfl

end

/-- **The normal form holds where the predicate does not say otherwise**, and fails where asking the
predicate fails. -/
theorem holds_normal (p : Predicate) (row : Value) :
    p.normal.holds row = (p.verdict row).map fun said => said.getD true := by
  rw [verdict_eq]
  split
  · next halways =>
      cases hp : p.normal with
      | always =>
          rw [holds]
          rfl
      | _ =>
          rw [hp] at halways
          exact absurd halways Bool.false_ne_true
  · cases p.normal.holds row <;> rfl

/-! ## Disjunctions that say something -/

theorem mem_nodesOf {q : Predicate} {parts : List Predicate} :
    q ∈ nodesOf parts ↔ ∃ p ∈ parts, q ∈ p.nodes := by
  induction parts with
  | nil => simp [nodesOf]
  | cons p rest ih => rw [nodesOf, List.mem_append, ih, List.exists_mem_cons_iff]

/-- Every disjunction in the predicate has parts, and the normal form of none of them is neutral. -/
def SaysEach (p : Predicate) : Prop :=
  ∀ parts, any parts ∈ p.nodes → parts ≠ [] ∧ ∀ c ∈ parts, c.normal ≠ always

theorem SaysEach.of_all {parts : List Predicate} (h : (all parts).SaysEach) :
    ∀ p ∈ parts, p.SaysEach := by
  intro p hp inner hinner
  apply h inner
  rw [nodes]
  exact List.mem_cons_of_mem _ (mem_nodesOf.2 ⟨p, hp, hinner⟩)

theorem SaysEach.of_any {parts : List Predicate} (h : (any parts).SaysEach) :
    (parts ≠ [] ∧ ∀ c ∈ parts, c.normal ≠ always) ∧ ∀ p ∈ parts, p.SaysEach := by
  constructor
  · apply h parts
    rw [nodes]
    exact List.mem_cons_self
  · intro p hp inner hinner
    apply h inner
    rw [nodes]
    exact List.mem_cons_of_mem _ (mem_nodesOf.2 ⟨p, hp, hinner⟩)

mutual

/-- The normal form of a predicate whose disjunctions all say something holds as the predicate
does. -/
theorem holds_normal_of_saysEach : ∀ (p : Predicate) (row : Value), p.SaysEach →
    p.normal.holds row = p.holds row
  | all parts, row, h => by
      have hnormal : (all parts).normal = conjoin parts := by rw [normal, conjoin]
      rw [hnormal, holds_conjoin, holds, holdsAll_map_normal parts row h.of_all]
  | any parts, row, h => by
      obtain ⟨⟨hne, hsay⟩, hparts⟩ := h.of_any
      have hnormal : (any parts).normal = disjoin parts := by rw [normal, disjoin]
      have hsays : ∀ p ∈ parts, p.normal.isAlways = false := by
        intro p hp
        cases hform : p.normal with
        | always => exact absurd hform (hsay p hp)
        | _ => rfl
      rw [hnormal, holds_disjoin hne hsays, holds, holdsAny_map_normal parts row hparts]
  | always, row, _ | equal _ _, row, _ | differ _ _, row, _ | order _ _ _, row, _
  | like _ _ _, row, _ | unlike _ _, row, _ | among _ _, row, _ | outside _ _, row, _
  | foreign _, row, _ => by
      simp only [normal]

theorem holdsAll_map_normal : ∀ (parts : List Predicate) (row : Value),
    (∀ p ∈ parts, p.SaysEach) → holdsAll (parts.map normal) row = holdsAll parts row
  | [], row, _ => rfl
  | p :: rest, row, h => by
      rw [List.map_cons, holdsAll, holdsAll, holds_normal_of_saysEach p row (h p List.mem_cons_self),
        holdsAll_map_normal rest row fun q hq => h q (List.mem_cons_of_mem _ hq)]

theorem holdsAny_map_normal : ∀ (parts : List Predicate) (row : Value),
    (∀ p ∈ parts, p.SaysEach) → holdsAny (parts.map normal) row = holdsAny parts row
  | [], row, _ => rfl
  | p :: rest, row, h => by
      rw [List.map_cons, holdsAny, holdsAny, holds_normal_of_saysEach p row (h p List.mem_cons_self),
        holdsAny_map_normal rest row fun q hq => h q (List.mem_cons_of_mem _ hq)]

end

/-! ## What a normal form keeps -/

/-- **What a normal form keeps**: every predicate with nothing foreign in it has a normal form, which
holds of a row where the predicate does not say otherwise, and fails as asking the predicate with its
neutral parts left out. Where every disjunction has parts that all say something, it holds and fails
as the predicate itself does. -/
theorem exists_normalized {p : Predicate} (h : p.hasForeign = false) :
    ∃ n, p.normalized = .ok n ∧
      (∀ row, n.holds row = (p.verdict row).map fun said => said.getD true) ∧
      (p.SaysEach → ∀ row, n.holds row = p.holds row) := by
  refine ⟨p.normal, ?_, p.holds_normal, fun hsays row => p.holds_normal_of_saysEach row hsays⟩
  rw [normalized, genuine, h]
  rfl

/-- The second item, asked for what is neutral in part: its normal form holds as the predicate does.
Asked for a disjunction with a neutral part, which holds, the normal form does not. -/
theorem exists_normalized_second :
    let row := Value.record [("id", .int 2)]
    let p := all [always, any [all [equal "id" (.int 1), all []], differ "id" (.int 1)]]
    let q := any [always, equal "id" (.int 1)]
    (p.hasForeign = false ∧ p.SaysEach ∧
      ∃ n, p.normalized = .ok n ∧ n.holds row = p.holds row ∧ p.holds row = .ok true) ∧
    q.hasForeign = false ∧
      ∃ n, q.normalized = .ok n ∧ n.holds row = .ok false ∧ q.holds row = .ok true := by
  intro row p q
  have hp : p.hasForeign = false := by cbv
  have hq : q.hasForeign = false := by cbv
  have hsays : p.SaysEach := by
    intro parts hparts
    -- there is one disjunction, and both of its parts come down to a leaf
    simp only [p, nodes, nodesOf, List.append_nil, List.cons_append, List.nil_append,
      List.mem_cons, any.injEq, reduceCtorEq, List.not_mem_nil, false_or, or_false] at hparts
    subst hparts
    simp [normal, normalConjuncts, conjuncts, groupAll]
  obtain ⟨n, hn, -, hkept⟩ := exists_normalized hp
  obtain ⟨m, hm, hsaid, -⟩ := exists_normalized hq
  refine ⟨⟨hp, hsays, n, hn, hkept hsays row, by cbv⟩, hq, m, hm, ?_, by cbv⟩
  rw [hsaid row]
  cbv

end Listing.Predicate
