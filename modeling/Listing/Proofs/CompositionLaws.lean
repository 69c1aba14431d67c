import Mathlib.Data.List.Basic
import Listing.Proofs.NormalForm
import Listing.Proofs.TracedResult
import Listing.Schema.Basic

/-!
# Laws of composition

Fields and validation are asked of the leaves of a predicate alone, in the order of its walk
(`Predicate.filter_nodes`, `Predicate.fields_eq`, `Schema.validateAll_leaves`). A normal form has
the leaves of its predicate, so it answers as the predicate does (`Predicate.exists_normal_form`).

A composition depends on what each of its parts brings into the group, and brings all of it into
another one (`Predicate.JoinsBy`). So predicates may be composed in any grouping, and a neutral one
among them makes no difference: composition is a monoid on normal forms, whichever way its parts are
written (`Predicate.composes`).
-/

set_option autoImplicit false

namespace Listing

/-! ## Leaves in the order of the walk -/

namespace Predicate

/-- The predicate is neither a group nor neutral. -/
def isLeaf : Predicate → Bool
  | always | all _ | any _ => false
  | _ => true

mutual

/-- The leaves are those nodes of the walk that are leaves. -/
theorem filter_nodes : ∀ p : Predicate, p.nodes.filter isLeaf = p.leaves
  | all parts => by
      rw [nodes, List.filter_cons_of_neg (by simp [isLeaf]), filter_nodesOf parts, leaves]
  | any parts => by
      rw [nodes, List.filter_cons_of_neg (by simp [isLeaf]), filter_nodesOf parts, leaves]
  | always | equal _ _ | differ _ _ | order _ _ _ | like _ _ _ | unlike _ _ | among _ _
  | outside _ _ | foreign _ => rfl

theorem filter_nodesOf : ∀ parts : List Predicate, (nodesOf parts).filter isLeaf = leavesOf parts
  | [] => rfl
  | p :: rest => by
      rw [nodesOf, List.filter_append, filter_nodes p, filter_nodesOf rest, leavesOf]

end

/-- Only leaves have fields. -/
theorem fields_eq (p : Predicate) : p.fields = p.leaves.filterMap leafField? := by
  rw [fields, ← filter_nodes, List.filterMap_filter]
  refine List.filterMap_congr fun q _ => ?_
  cases q <;> rfl

end Predicate

namespace Schema

variable (s : Schema)

theorem validateAll_append (ps qs : List Predicate) :
    s.validateAll (ps ++ qs) = (do s.validateAll ps; s.validateAll qs) := by
  induction ps with
  | nil => rfl
  | cons p ps ih =>
      rw [List.cons_append, validateAll, validateAll, ih]
      cases s.validate p <;> rfl

theorem validateAll_singleton (p : Predicate) : s.validateAll [p] = s.validate p := by
  rw [validateAll]
  cases s.validate p <;> rfl

mutual

/-- **A schema admits a predicate if it admits its leaves**, and refuses it with the fault of the
first leaf that it refuses. -/
theorem validateAll_leaves : ∀ p : Predicate, s.validateAll p.leaves = s.validate p
  | .all parts => by rw [Predicate.leaves, validateAll_leavesOf parts, validate]
  | .any parts => by rw [Predicate.leaves, validateAll_leavesOf parts, validate]
  | .always => rfl
  | .equal _ _ | .differ _ _ | .order _ _ _ | .like _ _ _ | .unlike _ _ | .among _ _
  | .outside _ _ | .foreign _ => validateAll_singleton s _

theorem validateAll_leavesOf : ∀ parts : List Predicate,
    s.validateAll (Predicate.leavesOf parts) = s.validateAll parts
  | [] => rfl
  | p :: rest => by
      rw [Predicate.leavesOf, validateAll_append, validateAll_leaves p, validateAll_leavesOf rest,
        validateAll]

end

/-- A schema asks the same of predicates with the same leaves. -/
theorem validate_congr {p q : Predicate} (h : p.leaves = q.leaves) :
    s.validate p = s.validate q := by
  rw [← validateAll_leaves, ← validateAll_leaves, h]

end Schema

namespace Predicate

/-! ## The normal form of a predicate -/

theorem normalized_of_genuine {p : Predicate} (h : p.hasForeign = false) :
    p.normalized = .ok p.normal := by
  rw [normalized, genuine, h]
  rfl

/-- **What a normal form is and what it keeps.** Every predicate with nothing foreign in it has a
normal form, which is neutral, a leaf, or a group of at least two parts, each in normal form, none
neutral and none a group of the same kind. It is its own normal form. It has the leaves of the
predicate in the same order, so the same fields, and every schema admits it or refuses it with the
same fault. -/
theorem exists_normal_form {p : Predicate} (h : p.hasForeign = false) :
    ∃ n, p.normalized = .ok n ∧ n.IsNormal ∧ n.normalized = .ok n ∧
      n.nodes.filter isLeaf = p.nodes.filter isLeaf ∧ n.fields = p.fields ∧
      ∀ s : Schema, s.validate n = s.validate p := by
  have hleaves : p.normal.leaves = p.leaves := leaves_normal p
  refine ⟨p.normal, normalized_of_genuine h, isNormal_normal p, ?_, ?_, ?_, fun s => ?_⟩
  · rw [normalized_of_genuine ((hasForeign_normal p).trans h), normal_normal]
  · rw [filter_nodes, filter_nodes, hleaves]
  · rw [fields_eq, fields_eq, hleaves]
  · exact s.validate_congr hleaves

/-- A disjunction of one part gives way to it, and the conjunction inside joins the outer one. -/
theorem exists_normal_form_unwrapped :
    let first := equal "id" (.int 1)
    let second := order "rank" .gt (.int 3)
    let third := like "name" (.text "a%") true
    let p := all [any [all [], all [first, any [always, second]]], any [always], third]
    p.hasForeign = false ∧ ∃ n, p.normalized = .ok n ∧ n = all [first, second, third] ∧
      n.IsNormal ∧ n.normalized = .ok n ∧
      n.nodes.filter isLeaf = p.nodes.filter isLeaf ∧ n.fields = p.fields ∧
      ∀ s : Schema, s.validate n = s.validate p := by
  intro first second third p
  have hp : p.hasForeign = false := by cbv
  obtain ⟨n, hn, hkept⟩ := exists_normal_form hp
  have hform : p.normalized = .ok (all [first, second, third]) := by cbv
  exact ⟨hp, n, hn, Except.ok.inj (hn.symm.trans hform), hkept⟩

/-! ## What the parts of a composition bring -/

theorem conjuncts_groupAll {parts : List Predicate} (h : AreNormal isConjunct parts) :
    (groupAll parts).conjuncts = parts := by
  match parts, h with
  | [], _ => rfl
  | [p], h =>
      rw [AreNormal] at h
      exact conjuncts_of_isConjunct h.1.1
  | p :: q :: rest, _ => rfl

theorem disjuncts_groupAny {parts : List Predicate} (h : AreNormal isDisjunct parts) :
    (groupAny parts).disjuncts = parts := by
  match parts, h with
  | [], _ => rfl
  | [p], h =>
      rw [AreNormal] at h
      exact disjuncts_of_isDisjunct h.1.1
  | p :: q :: rest, _ => rfl

theorem groupAll_conjuncts {p : Predicate} (h : p.IsNormal) : groupAll p.conjuncts = p := by
  cases p with
  | all parts =>
      rw [IsNormal] at h
      exact groupAll_of_two_le h.1
  | _ => rfl

theorem groupAny_disjuncts {p : Predicate} (h : p.IsNormal) : groupAny p.disjuncts = p := by
  cases p with
  | any parts =>
      rw [IsNormal] at h
      exact groupAny_of_two_le h.1
  | _ => rfl

theorem normalConjuncts_eq (parts : List Predicate) :
    normalConjuncts parts = parts.flatMap fun p => p.normal.conjuncts := by
  induction parts with
  | nil => rfl
  | cons p rest ih => rw [normalConjuncts, ih, List.flatMap_cons]

theorem normalDisjuncts_eq (parts : List Predicate) :
    normalDisjuncts parts = parts.flatMap fun p => p.normal.disjuncts := by
  induction parts with
  | nil => rfl
  | cons p rest ih => rw [normalDisjuncts, ih, List.flatMap_cons]

/-- Joining predicates depends on what they bring, and brings all of it. -/
structure JoinsBy (join : List Predicate → Predicate) (brings : Predicate → List Predicate) :
    Prop where
  /-- Predicates that bring the same are joined to the same. -/
  congr : ∀ {ps qs : List Predicate}, ps.flatMap brings = qs.flatMap brings → join ps = join qs
  /-- Joined predicates bring what each of them brings. -/
  brings_join : ∀ ps, brings (join ps) = ps.flatMap brings
  /-- The neutral predicate brings nothing. -/
  brings_always : brings always = []
  /-- A predicate on its own is put into normal form. -/
  join_singleton : ∀ p, join [p] = p.normal
  /-- Joining takes nothing foreign away and adds nothing foreign. -/
  hasForeign_join : ∀ ps, (join ps).hasForeign = anyForeign ps

/-- A conjunction joins the conjuncts of normal forms. -/
theorem conjoin_joinsBy : JoinsBy conjoin fun p => p.normal.conjuncts where
  congr h := by rw [conjoin, conjoin, normalConjuncts_eq, normalConjuncts_eq, h]
  brings_join ps := by
    rw [normal_conjoin, conjoin, conjuncts_groupAll (areNormal_normalConjuncts ps),
      normalConjuncts_eq]
  brings_always := rfl
  join_singleton p := by
    rw [conjoin, normalConjuncts_eq, List.flatMap_singleton, groupAll_conjuncts (isNormal_normal p)]
  hasForeign_join := hasForeign_conjoin

/-- A disjunction joins the disjuncts of normal forms. -/
theorem disjoin_joinsBy : JoinsBy disjoin fun p => p.normal.disjuncts where
  congr h := by rw [disjoin, disjoin, normalDisjuncts_eq, normalDisjuncts_eq, h]
  brings_join ps := by
    rw [normal_disjoin, disjoin, disjuncts_groupAny (areNormal_normalDisjuncts ps),
      normalDisjuncts_eq]
  brings_always := rfl
  join_singleton p := by
    rw [disjoin, normalDisjuncts_eq, List.flatMap_singleton, groupAny_disjuncts (isNormal_normal p)]
  hasForeign_join := hasForeign_disjoin

/-! ## Composition in groups -/

namespace JoinsBy

variable {join : List Predicate → Predicate} {brings : Predicate → List Predicate}

/-- Joining what groups are joined to joins them all. -/
theorem join_map_join (h : JoinsBy join brings) (groups : List (List Predicate)) :
    join (groups.map join) = join groups.flatten := by
  apply h.congr
  induction groups with
  | nil => rfl
  | cons group groups ih =>
      rw [List.map_cons, List.flatMap_cons, h.brings_join, ih, List.flatten_cons,
        List.flatMap_append]

/-- A part may be joined with others first, wherever it stands. -/
theorem join_nested (h : JoinsBy join brings) (before parts after : List Predicate) :
    join (before ++ join parts :: after) = join (before ++ parts ++ after) := by
  apply h.congr
  rw [List.flatMap_append, List.flatMap_cons, h.brings_join, List.flatMap_append,
    List.flatMap_append, List.append_assoc]

/-- A neutral part makes no difference, wherever it stands. -/
theorem join_neutral (h : JoinsBy join brings) (before after : List Predicate) :
    join (before ++ always :: after) = join (before ++ after) := by
  apply h.congr
  rw [List.flatMap_append, List.flatMap_cons, h.brings_always, List.nil_append,
    List.flatMap_append]

end JoinsBy

/-- Predicates joined, if nothing in them is foreign. -/
def joined (join : List Predicate → Predicate) (parts : List Predicate) : Result Predicate :=
  if anyForeign parts then .error .noSuchOperation else .ok (join parts)

section

variable {join : List Predicate → Predicate} {brings : Predicate → List Predicate}
  {ps qs : List Predicate}

theorem joined_of_genuine (h : anyForeign ps = false) : joined join ps = .ok (join ps) := by
  rw [joined, h]
  rfl

theorem joined_of_foreign (h : anyForeign ps = true) :
    joined join ps = .error .noSuchOperation := by
  rw [joined, h]
  rfl

theorem joined_congr (hforeign : anyForeign ps = anyForeign qs) (hjoin : join ps = join qs) :
    joined join ps = joined join qs := by
  rw [joined, joined, hforeign, hjoin]

/-- Groups are joined one by one unless there is something foreign in any of them. -/
theorem mapM_joined (join : List Predicate → Predicate) (groups : List (List Predicate)) :
    groups.mapM (joined join) =
      if anyForeign groups.flatten then .error .noSuchOperation else .ok (groups.map join) := by
  induction groups with
  | nil => rfl
  | cons group groups ih =>
      rw [List.mapM_cons, ih, List.flatten_cons, anyForeign_append]
      cases hgroup : anyForeign group with
      | true => rw [joined_of_foreign hgroup]; rfl
      | false =>
          rw [joined_of_genuine hgroup]
          cases anyForeign groups.flatten <;> rfl

namespace JoinsBy

theorem anyForeign_map_join (h : JoinsBy join brings) (groups : List (List Predicate)) :
    anyForeign (groups.map join) = anyForeign groups.flatten := by
  induction groups with
  | nil => rfl
  | cons group groups ih =>
      rw [List.map_cons, anyForeign, h.hasForeign_join, ih, List.flatten_cons, anyForeign_append]

theorem joined_regroup (h : JoinsBy join brings) (groups : List (List Predicate)) :
    (groups.mapM (joined join) >>= joined join) = joined join groups.flatten := by
  rw [mapM_joined]
  cases hforeign : anyForeign groups.flatten with
  | true => rw [joined_of_foreign hforeign]; rfl
  | false => exact joined_congr (h.anyForeign_map_join groups) (h.join_map_join groups)

theorem joined_nested (h : JoinsBy join brings) (before parts after : List Predicate) :
    (joined join parts >>= fun p => joined join (before ++ p :: after)) =
      joined join (before ++ parts ++ after) := by
  cases hforeign : anyForeign parts with
  | true =>
      rw [joined_of_foreign hforeign, joined_of_foreign]
      · rfl
      · rw [anyForeign_append, anyForeign_append, hforeign, Bool.or_true, Bool.true_or]
  | false =>
      rw [joined_of_genuine hforeign, Result.ok_bind]
      apply joined_congr
      · rw [anyForeign_append, anyForeign, h.hasForeign_join, anyForeign_append, anyForeign_append,
          Bool.or_assoc]
      · exact h.join_nested before parts after

theorem joined_neutral (h : JoinsBy join brings) (before after : List Predicate) :
    joined join (before ++ always :: after) = joined join (before ++ after) := by
  apply joined_congr
  · have halways : hasForeign always = false := rfl
    rw [anyForeign_append, anyForeign, halways, Bool.false_or, anyForeign_append]
  · exact h.join_neutral before after

theorem joined_singleton (h : JoinsBy join brings) (p : Predicate) :
    joined join [p] = p.normalized := by
  rw [joined, h.join_singleton, anyForeign, anyForeign, Bool.or_false, normalized, genuine]
  cases p.hasForeign <;> rfl

end JoinsBy

end

/-! ## Composition as a monoid -/

/-- The composition of a kind of group is a monoid on normal forms. -/
structure IsMonoidal (group : List Predicate → Predicate)
    (compose : List Predicate → Result Predicate) : Prop where
  /-- Predicates are composed to the normal form of their group. -/
  normalizes : ∀ parts, compose parts = (group parts).normalized
  /-- Predicates with nothing foreign in them are composed into normal form. -/
  exists_normal : ∀ parts, anyForeign parts = false → ∃ n, compose parts = .ok n ∧ n.IsNormal
  /-- Composing what consecutive groups are composed to composes them all. -/
  regroup : ∀ groups : List (List Predicate),
    (do compose (← groups.mapM compose)) = compose groups.flatten
  /-- The first two of three may be composed before the third. -/
  left_first : ∀ a b c, (do compose [← compose [a, b], c]) = compose [a, b, c]
  /-- The last two of three may be composed before the first. -/
  right_first : ∀ a b c, (do compose [a, ← compose [b, c]]) = compose [a, b, c]
  /-- The neutral predicate in front makes no difference. -/
  neutral_left : ∀ a, compose [always, a] = a.normalized
  /-- The neutral predicate at the end makes no difference. -/
  neutral_right : ∀ a, compose [a, always] = a.normalized

theorem JoinsBy.isMonoidal {join group : List Predicate → Predicate}
    {brings : Predicate → List Predicate} (h : JoinsBy join brings)
    (hjoin : ∀ parts, join parts = (group parts).normal)
    (hforeign : ∀ parts, anyForeign parts = (group parts).hasForeign) :
    IsMonoidal group (joined join) where
  normalizes parts := by
    rw [joined, hjoin, hforeign, normalized, genuine]
    cases (group parts).hasForeign <;> rfl
  exists_normal parts hparts := by
    refine ⟨join parts, joined_of_genuine hparts, ?_⟩
    rw [hjoin]
    exact isNormal_normal (group parts)
  regroup := h.joined_regroup
  left_first a b c := h.joined_nested [] [a, b] [c]
  right_first a b c := h.joined_nested [a] [b, c] []
  neutral_left a := (h.joined_neutral [] [a]).trans (h.joined_singleton a)
  neutral_right a := (h.joined_neutral [a] []).trans (h.joined_singleton a)

/-- **Conjunction and disjunction are monoids on normal forms**: predicates may be composed in any
grouping and with neutral ones among them, and the very same predicate comes of it. -/
theorem composes : IsMonoidal all conjoined ∧ IsMonoidal any disjoined := by
  constructor
  · apply conjoin_joinsBy.isMonoidal
    · exact fun parts => by rw [normal, conjoin]
    · exact fun parts => by rw [hasForeign]
  · apply disjoin_joinsBy.isMonoidal
    · exact fun parts => by rw [normal, disjoin]
    · exact fun parts => by rw [hasForeign]

end Predicate

end Listing
