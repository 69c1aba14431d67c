import Mathlib.Data.List.Basic
import Listing.Predicate.Evaluate
import Listing.Predicate.Normal

/-!
# Normal forms and what they mean

`IsNormal` says which predicates are in normal form: groups have at least two parts, none of which is
neutral or a group of the same kind. Every normal form is one (`isNormal_normal`), and nothing is
left to do on one (`normal_of_isNormal`). Composition keeps the leaves of its parts (`leaves_conjoin`,
`leaves_disjoin`), and its meaning is understood part by part: a conjunction is evaluated as the
normal forms of its parts from left to right (`holds_conjoin`), and so is a disjunction none of whose
parts is neutral (`holds_disjoin`), faults included.
-/

set_option autoImplicit false

namespace Listing.Predicate

/-! ## Predicates in normal form -/

/-- The predicate may stand in a conjunction. -/
def isConjunct : Predicate → Bool
  | always | all _ => false
  | _ => true

/-- The predicate may stand in a disjunction. -/
def isDisjunct : Predicate → Bool
  | always | any _ => false
  | _ => true

mutual

/-- The predicate is in normal form. -/
def IsNormal : Predicate → Prop
  | all parts => 2 ≤ parts.length ∧ AreNormal isConjunct parts
  | any parts => 2 ≤ parts.length ∧ AreNormal isDisjunct parts
  | _ => True

/-- The parts are in normal form, and each may stand where they stand. -/
def AreNormal (mayStand : Predicate → Bool) : List Predicate → Prop
  | [] => True
  | p :: rest => (mayStand p = true ∧ IsNormal p) ∧ AreNormal mayStand rest

end

theorem areNormal_append {mayStand : Predicate → Bool} {ps qs : List Predicate}
    (hps : AreNormal mayStand ps) (hqs : AreNormal mayStand qs) : AreNormal mayStand (ps ++ qs) := by
  induction ps with
  | nil => exact hqs
  | cons p ps ih =>
      rw [AreNormal] at hps
      rw [List.cons_append, AreNormal]
      exact ⟨hps.1, ih hps.2⟩

theorem areNormal_conjuncts {p : Predicate} (h : p.IsNormal) : AreNormal isConjunct p.conjuncts := by
  cases p with
  | always => simp [conjuncts, AreNormal]
  | all parts =>
      rw [IsNormal] at h
      exact h.2
  | _ => simpa [conjuncts, AreNormal, isConjunct] using h

theorem areNormal_disjuncts {p : Predicate} (h : p.IsNormal) : AreNormal isDisjunct p.disjuncts := by
  cases p with
  | always => simp [disjuncts, AreNormal]
  | any parts =>
      rw [IsNormal] at h
      exact h.2
  | _ => simpa [disjuncts, AreNormal, isDisjunct] using h

theorem groupAll_of_two_le {parts : List Predicate} (h : 2 ≤ parts.length) :
    groupAll parts = all parts := by
  match parts, h with
  | p :: q :: rest, _ => rfl

theorem groupAny_of_two_le {parts : List Predicate} (h : 2 ≤ parts.length) :
    groupAny parts = any parts := by
  match parts, h with
  | p :: q :: rest, _ => rfl

theorem isNormal_groupAll {parts : List Predicate} (h : AreNormal isConjunct parts) :
    (groupAll parts).IsNormal := by
  match parts, h with
  | [], _ => simp [groupAll, IsNormal]
  | [p], h =>
      rw [AreNormal] at h
      exact h.1.2
  | p :: q :: rest, h =>
      rw [groupAll_of_two_le (by simp), IsNormal]
      exact ⟨by simp, h⟩

theorem isNormal_groupAny {parts : List Predicate} (h : AreNormal isDisjunct parts) :
    (groupAny parts).IsNormal := by
  match parts, h with
  | [], _ => simp [groupAny, IsNormal]
  | [p], h =>
      rw [AreNormal] at h
      exact h.1.2
  | p :: q :: rest, h =>
      rw [groupAny_of_two_le (by simp), IsNormal]
      exact ⟨by simp, h⟩

mutual

/-- **The normal form of a predicate is in normal form.** -/
theorem isNormal_normal : ∀ p : Predicate, p.normal.IsNormal := by
  intro p
  cases p with
  | all parts =>
      rw [normal]
      exact isNormal_groupAll (areNormal_normalConjuncts parts)
  | any parts =>
      rw [normal]
      exact isNormal_groupAny (areNormal_normalDisjuncts parts)
  | _ => simp [normal, IsNormal]

/-- The conjuncts of normal forms may stand in a conjunction. -/
theorem areNormal_normalConjuncts : ∀ parts : List Predicate,
    AreNormal isConjunct (normalConjuncts parts) := by
  intro parts
  cases parts with
  | nil => simp [normalConjuncts, AreNormal]
  | cons p rest =>
      rw [normalConjuncts]
      exact areNormal_append (areNormal_conjuncts (isNormal_normal p))
        (areNormal_normalConjuncts rest)

/-- The disjuncts of normal forms may stand in a disjunction. -/
theorem areNormal_normalDisjuncts : ∀ parts : List Predicate,
    AreNormal isDisjunct (normalDisjuncts parts) := by
  intro parts
  cases parts with
  | nil => simp [normalDisjuncts, AreNormal]
  | cons p rest =>
      rw [normalDisjuncts]
      exact areNormal_append (areNormal_disjuncts (isNormal_normal p))
        (areNormal_normalDisjuncts rest)

end

theorem conjuncts_of_isConjunct {p : Predicate} (h : p.isConjunct = true) : p.conjuncts = [p] := by
  cases p with
  | always => exact absurd h (by simp [isConjunct])
  | all parts => exact absurd h (by simp [isConjunct])
  | _ => rfl

theorem disjuncts_of_isDisjunct {p : Predicate} (h : p.isDisjunct = true) : p.disjuncts = [p] := by
  cases p with
  | always => exact absurd h (by simp [isDisjunct])
  | any parts => exact absurd h (by simp [isDisjunct])
  | _ => rfl

mutual

/-- **A predicate in normal form is its own normal form.** -/
theorem normal_of_isNormal : ∀ p : Predicate, p.IsNormal → p.normal = p := by
  intro p h
  cases p with
  | all parts =>
      rw [IsNormal] at h
      rw [normal, normalConjuncts_of_areNormal parts h.2, groupAll_of_two_le h.1]
  | any parts =>
      rw [IsNormal] at h
      rw [normal, normalDisjuncts_of_areNormal parts h.2, groupAny_of_two_le h.1]
  | _ => rfl

/-- Parts that may stand in a conjunction stay as they are. -/
theorem normalConjuncts_of_areNormal : ∀ parts : List Predicate,
    AreNormal isConjunct parts → normalConjuncts parts = parts := by
  intro parts h
  cases parts with
  | nil => rfl
  | cons p rest =>
      rw [AreNormal] at h
      rw [normalConjuncts, normal_of_isNormal p h.1.2, conjuncts_of_isConjunct h.1.1,
        normalConjuncts_of_areNormal rest h.2, List.singleton_append]

/-- Parts that may stand in a disjunction stay as they are. -/
theorem normalDisjuncts_of_areNormal : ∀ parts : List Predicate,
    AreNormal isDisjunct parts → normalDisjuncts parts = parts := by
  intro parts h
  cases parts with
  | nil => rfl
  | cons p rest =>
      rw [AreNormal] at h
      rw [normalDisjuncts, normal_of_isNormal p h.1.2, disjuncts_of_isDisjunct h.1.1,
        normalDisjuncts_of_areNormal rest h.2, List.singleton_append]

end

@[simp]
theorem normal_normal (p : Predicate) : p.normal.normal = p.normal :=
  normal_of_isNormal p.normal (isNormal_normal p)

/-- A conjunction is in normal form. -/
theorem normal_conjoin (parts : List Predicate) : (conjoin parts).normal = conjoin parts := by
  have h : (all parts).normal = conjoin parts := by
    rw [normal, conjoin]
  rw [← h, normal_normal]

/-- A disjunction is in normal form. -/
theorem normal_disjoin (parts : List Predicate) : (disjoin parts).normal = disjoin parts := by
  have h : (any parts).normal = disjoin parts := by
    rw [normal, disjoin]
  rw [← h, normal_normal]

theorem normalConjuncts_append (ps qs : List Predicate) :
    normalConjuncts (ps ++ qs) = normalConjuncts ps ++ normalConjuncts qs := by
  induction ps with
  | nil => rfl
  | cons p ps ih =>
      rw [List.cons_append, normalConjuncts, normalConjuncts, ih, List.append_assoc]

theorem isAlways_groupAll {parts : List Predicate} (h : AreNormal isConjunct parts) :
    (groupAll parts).isAlways = parts.isEmpty := by
  match parts, h with
  | [], _ => rfl
  -- one part is left as it is, and it is not neutral
  | [p], h =>
      rw [AreNormal] at h
      cases p with
      | always => exact absurd h.1.1 (by simp [isConjunct])
      | _ => rfl
  | p :: q :: rest, _ => rfl

theorem isAlways_groupAny {parts : List Predicate} (h : AreNormal isDisjunct parts) :
    (groupAny parts).isAlways = parts.isEmpty := by
  match parts, h with
  | [], _ => rfl
  | [p], h =>
      rw [AreNormal] at h
      cases p with
      | always => exact absurd h.1.1 (by simp [isDisjunct])
      | _ => rfl
  | p :: q :: rest, _ => rfl

/-- A conjunction that keeps a part is not neutral. -/
theorem isAlways_conjoin {parts : List Predicate} (h : normalConjuncts parts ≠ []) :
    (conjoin parts).isAlways = false := by
  rw [conjoin, isAlways_groupAll (areNormal_normalConjuncts parts)]
  exact List.isEmpty_eq_false_iff.2 h

/-- Only the neutral predicate brings nothing into a conjunction. -/
theorem isEmpty_conjuncts {p : Predicate} (h : p.IsNormal) : p.conjuncts.isEmpty = p.isAlways := by
  cases p with
  | all parts =>
      rw [IsNormal] at h
      change parts.isEmpty = false
      exact List.isEmpty_eq_false_iff.2 (List.ne_nil_of_length_pos (by omega))
  | _ => rfl

/-- Only the neutral predicate brings nothing into a disjunction. -/
theorem isEmpty_disjuncts {p : Predicate} (h : p.IsNormal) : p.disjuncts.isEmpty = p.isAlways := by
  cases p with
  | any parts =>
      rw [IsNormal] at h
      change parts.isEmpty = false
      exact List.isEmpty_eq_false_iff.2 (List.ne_nil_of_length_pos (by omega))
  | _ => rfl

/-! ## Foreign things -/

theorem anyForeign_append (ps qs : List Predicate) :
    anyForeign (ps ++ qs) = (anyForeign ps || anyForeign qs) := by
  induction ps with
  | nil => simp [anyForeign]
  | cons p ps ih => rw [List.cons_append, anyForeign, anyForeign, ih, Bool.or_assoc]

theorem anyForeign_conjuncts (p : Predicate) : anyForeign p.conjuncts = p.hasForeign := by
  cases p <;> simp [conjuncts, anyForeign, hasForeign]

theorem anyForeign_disjuncts (p : Predicate) : anyForeign p.disjuncts = p.hasForeign := by
  cases p <;> simp [disjuncts, anyForeign, hasForeign]

theorem hasForeign_groupAll (parts : List Predicate) :
    (groupAll parts).hasForeign = anyForeign parts := by
  match parts with
  | [] => simp [groupAll, hasForeign, anyForeign]
  | [p] => simp [groupAll, anyForeign]
  | p :: q :: rest => rw [groupAll_of_two_le (by simp), hasForeign]

theorem hasForeign_groupAny (parts : List Predicate) :
    (groupAny parts).hasForeign = anyForeign parts := by
  match parts with
  | [] => simp [groupAny, hasForeign, anyForeign]
  | [p] => simp [groupAny, anyForeign]
  | p :: q :: rest => rw [groupAny_of_two_le (by simp), hasForeign]

mutual

/-- The normal form of a predicate holds something foreign when the predicate does. -/
theorem hasForeign_normal : ∀ p : Predicate, p.normal.hasForeign = p.hasForeign := by
  intro p
  cases p with
  | all parts => rw [normal, hasForeign_groupAll, anyForeign_normalConjuncts, hasForeign]
  | any parts => rw [normal, hasForeign_groupAny, anyForeign_normalDisjuncts, hasForeign]
  | _ => simp [normal, hasForeign]

/-- So do the conjuncts of normal forms. -/
theorem anyForeign_normalConjuncts : ∀ parts : List Predicate,
    anyForeign (normalConjuncts parts) = anyForeign parts := by
  intro parts
  cases parts with
  | nil => rfl
  | cons p rest =>
      rw [normalConjuncts, anyForeign_append, anyForeign_conjuncts, hasForeign_normal p,
        anyForeign_normalConjuncts rest, anyForeign]

/-- So do the disjuncts of normal forms. -/
theorem anyForeign_normalDisjuncts : ∀ parts : List Predicate,
    anyForeign (normalDisjuncts parts) = anyForeign parts := by
  intro parts
  cases parts with
  | nil => rfl
  | cons p rest =>
      rw [normalDisjuncts, anyForeign_append, anyForeign_disjuncts, hasForeign_normal p,
        anyForeign_normalDisjuncts rest, anyForeign]

end

theorem hasForeign_conjoin (parts : List Predicate) :
    (conjoin parts).hasForeign = anyForeign parts := by
  rw [conjoin, hasForeign_groupAll, anyForeign_normalConjuncts]

theorem hasForeign_disjoin (parts : List Predicate) :
    (disjoin parts).hasForeign = anyForeign parts := by
  rw [disjoin, hasForeign_groupAny, anyForeign_normalDisjuncts]

/-! ## Leaves -/

mutual

/-- The leaves in order; the neutral predicate has none. -/
def leaves : Predicate → List Predicate
  | all parts => leavesOf parts
  | any parts => leavesOf parts
  | always => []
  | p => [p]

/-- The leaves of predicates in order. -/
def leavesOf : List Predicate → List Predicate
  | [] => []
  | p :: rest => p.leaves ++ leavesOf rest

end

theorem leavesOf_append (ps qs : List Predicate) :
    leavesOf (ps ++ qs) = leavesOf ps ++ leavesOf qs := by
  induction ps with
  | nil => rfl
  | cons p ps ih => rw [List.cons_append, leavesOf, leavesOf, ih, List.append_assoc]

theorem leavesOf_eq_flatMap (parts : List Predicate) : leavesOf parts = parts.flatMap leaves := by
  induction parts with
  | nil => rfl
  | cons p rest ih => rw [leavesOf, ih, List.flatMap_cons]

theorem leavesOf_singleton (p : Predicate) : leavesOf [p] = p.leaves := by
  rw [leavesOf, leavesOf, List.append_nil]

theorem leavesOf_conjuncts (p : Predicate) : leavesOf p.conjuncts = p.leaves := by
  cases p <;> simp [conjuncts, leavesOf, leaves]

theorem leavesOf_disjuncts (p : Predicate) : leavesOf p.disjuncts = p.leaves := by
  cases p <;> simp [disjuncts, leavesOf, leaves]

theorem leaves_groupAll (parts : List Predicate) : (groupAll parts).leaves = leavesOf parts := by
  match parts with
  | [] => rfl
  | [p] => exact (leavesOf_singleton p).symm
  | p :: q :: rest => rw [groupAll_of_two_le (by simp), leaves]

theorem leaves_groupAny (parts : List Predicate) : (groupAny parts).leaves = leavesOf parts := by
  match parts with
  | [] => rfl
  | [p] => exact (leavesOf_singleton p).symm
  | p :: q :: rest => rw [groupAny_of_two_le (by simp), leaves]

mutual

/-- **The normal form of a predicate has the same leaves**, in the same order. -/
theorem leaves_normal : ∀ p : Predicate, p.normal.leaves = p.leaves := by
  intro p
  cases p with
  | all parts => rw [normal, leaves_groupAll, leavesOf_normalConjuncts, leaves]
  | any parts => rw [normal, leaves_groupAny, leavesOf_normalDisjuncts, leaves]
  | _ => simp [normal]

theorem leavesOf_normalConjuncts : ∀ parts : List Predicate,
    leavesOf (normalConjuncts parts) = leavesOf parts := by
  intro parts
  cases parts with
  | nil => rfl
  | cons p rest =>
      rw [normalConjuncts, leavesOf_append, leavesOf_conjuncts, leaves_normal p,
        leavesOf_normalConjuncts rest, leavesOf]

theorem leavesOf_normalDisjuncts : ∀ parts : List Predicate,
    leavesOf (normalDisjuncts parts) = leavesOf parts := by
  intro parts
  cases parts with
  | nil => rfl
  | cons p rest =>
      rw [normalDisjuncts, leavesOf_append, leavesOf_disjuncts, leaves_normal p,
        leavesOf_normalDisjuncts rest, leavesOf]

end

theorem leaves_conjoin (parts : List Predicate) : (conjoin parts).leaves = leavesOf parts := by
  rw [conjoin, leaves_groupAll, leavesOf_normalConjuncts]

theorem leaves_disjoin (parts : List Predicate) : (disjoin parts).leaves = leavesOf parts := by
  rw [disjoin, leaves_groupAny, leavesOf_normalDisjuncts]

/-! ## The meaning of compositions -/

theorem holdsAll_append (ps qs : List Predicate) (row : Value) :
    holdsAll (ps ++ qs) row =
      (do if ← holdsAll ps row then holdsAll qs row else return false) := by
  induction ps with
  | nil => rfl
  | cons p ps ih =>
      rw [List.cons_append, holdsAll, holdsAll, ih]
      cases p.holds row with
      | error e => rfl
      | ok b => cases b <;> rfl

theorem holdsAny_append (ps qs : List Predicate) (row : Value) :
    holdsAny (ps ++ qs) row =
      (do if ← holdsAny ps row then return true else holdsAny qs row) := by
  induction ps with
  | nil => rfl
  | cons p ps ih =>
      rw [List.cons_append, holdsAny, holdsAny, ih]
      cases p.holds row with
      | error e => rfl
      | ok b => cases b <;> rfl

theorem holdsAll_singleton (p : Predicate) (row : Value) : holdsAll [p] row = p.holds row := by
  rw [holdsAll, holdsAll]
  cases p.holds row with
  | error e => rfl
  | ok b => cases b <;> rfl

theorem holdsAny_singleton (p : Predicate) (row : Value) : holdsAny [p] row = p.holds row := by
  rw [holdsAny, holdsAny]
  cases p.holds row with
  | error e => rfl
  | ok b => cases b <;> rfl

theorem holds_groupAll (parts : List Predicate) (row : Value) :
    (groupAll parts).holds row = holdsAll parts row := by
  match parts with
  | [] => rw [groupAll, holds, holdsAll]
  | [p] => rw [groupAll, holdsAll_singleton]
  | p :: q :: rest =>
      rw [groupAll_of_two_le (by simp), holds]

theorem holds_groupAny {parts : List Predicate} (h : parts ≠ []) (row : Value) :
    (groupAny parts).holds row = holdsAny parts row := by
  match parts, h with
  | [p], _ => rw [groupAny, holdsAny_singleton]
  | p :: q :: rest, _ =>
      rw [groupAny_of_two_le (by simp), holds]

theorem holdsAll_conjuncts (p : Predicate) (row : Value) :
    holdsAll p.conjuncts row = p.holds row := by
  cases p with
  | always => rw [conjuncts, holdsAll, holds]
  | all parts => rw [conjuncts, holds]
  | _ => exact holdsAll_singleton _ row

theorem holdsAny_disjuncts {p : Predicate} (h : p.isAlways = false) (row : Value) :
    holdsAny p.disjuncts row = p.holds row := by
  cases p with
  | always => exact absurd h (by simp [isAlways])
  | any parts => rw [disjuncts, holds]
  | _ => exact holdsAny_singleton _ row

/-- **A conjunction is evaluated as the normal forms of its parts.** -/
theorem holds_conjoin (parts : List Predicate) (row : Value) :
    (conjoin parts).holds row = holdsAll (parts.map normal) row := by
  rw [conjoin, holds_groupAll]
  induction parts with
  | nil => rfl
  | cons p rest ih =>
      rw [normalConjuncts, holdsAll_append, holdsAll_conjuncts, ih, List.map_cons, holdsAll]

theorem normalDisjuncts_ne_nil {parts : List Predicate} (hne : parts ≠ [])
    (h : ∀ p ∈ parts, p.normal.isAlways = false) : normalDisjuncts parts ≠ [] := by
  cases parts with
  | nil => exact absurd rfl hne
  | cons p rest =>
      -- the first part has disjuncts: itself, or those of a group with at least two
      have hfirst : p.normal.disjuncts ≠ [] := by
        rw [← List.isEmpty_eq_false_iff, isEmpty_disjuncts (isNormal_normal p)]
        exact h p List.mem_cons_self
      rw [normalDisjuncts]
      exact List.append_ne_nil_of_left_ne_nil hfirst _

/-- **A disjunction without neutral parts is evaluated as the normal forms of its parts.** -/
theorem holds_disjoin {parts : List Predicate} (hne : parts ≠ [])
    (h : ∀ p ∈ parts, p.normal.isAlways = false) (row : Value) :
    (disjoin parts).holds row = holdsAny (parts.map normal) row := by
  rw [disjoin, holds_groupAny (normalDisjuncts_ne_nil hne h)]
  -- the rest may be empty in the induction
  clear hne
  induction parts with
  | nil => rfl
  | cons p rest ih =>
      rw [normalDisjuncts, holdsAny_append, holdsAny_disjuncts (h p (by simp)),
        ih (fun q hq => h q (by simp [hq])), List.map_cons, holdsAny]

end Listing.Predicate
