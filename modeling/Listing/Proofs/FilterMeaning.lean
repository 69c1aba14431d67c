import Mathlib
import Listing.Filter.Compile
import Listing.Proofs.CutTexts
import Listing.Proofs.NormalForm
import Listing.Proofs.ReadValues
import Listing.Proofs.TracedResult
import Listing.Proofs.WritableTexts

/-!
# What filters mean

The filters of a request stand for groups of leaves, one group for each field that has tokens, one
leaf for each token (`Filter.Means`). A compiled filter answers as its groups do when they are asked
from left to right, the leaves of one field as its junction says and the fields all together; the
normal form that composition brings about changes neither the answer nor the first fault
(`Filter.answers_compile`).
-/

set_option autoImplicit false

namespace Listing

/-! ## Tokens and leaves -/

/-- The token is the name of an operator, a colon and a raw text. -/
def Operator.Starts (op : Operator) (token raw : String) : Prop :=
  ∃ name, token.toList = name.toList ++ ':' :: raw.toList ∧ ':' ∉ name.toList ∧
    Operator.read? name = some op

/-- The predicate is the leaf of an operator on a field: patterns are left as they are, any other
operator compares with what the field reads from the raw text, or from the parts of it. -/
inductive Field.Says (f : Field) (name : String) : Operator → String → Predicate → Prop
  | equal {raw : String} {v : Value} (h : f.coerce (.text raw) = .ok v) :
    Says f name .equal raw (.equal name v)
  | differ {raw : String} {v : Value} (h : f.coerce (.text raw) = .ok v) :
    Says f name .differ raw (.differ name v)
  | order {raw : String} {v : Value} (c : Comparison) (h : f.coerce (.text raw) = .ok v) :
    Says f name (.order c) raw (.order name c v)
  | like (raw : String) : Says f name .like raw (.like name (.text raw) false)
  | likeAnyCase (raw : String) : Says f name .likeAnyCase raw (.like name (.text raw) true)
  | unlike (raw : String) : Says f name .unlike raw (.unlike name (.text raw))
  | among {raw : String} {vs : List Value} (hne : vs ≠ [])
    (h : List.Forall₂ (fun part v => f.coerce (.text part) = .ok v) (Text.parts ',' raw) vs) :
    Says f name .among raw (.among name vs)
  | outside {raw : String} {vs : List Value} (hne : vs ≠ [])
    (h : List.Forall₂ (fun part v => f.coerce (.text part) = .ok v) (Text.parts ',' raw) vs) :
    Says f name .outside raw (.outside name vs)

/-- The token starts with an operator that the field allows, and the predicate is its leaf. -/
def Field.Reads (f : Field) (name token : String) (q : Predicate) : Prop :=
  ∃ op raw, op.Starts token raw ∧ f.allows op = true ∧ f.Says name op raw q

/-- The leaf asks a declared field about values in the form of its kind, or about a text as a
pattern; a leaf that asks about several values has at least one. -/
def Schema.Types (s : Schema) : Predicate → Prop
  | .equal f v | .differ f v | .order f _ v => ∃ d, s.get? f = some d ∧ d.kind.Reads v
  | .like f v _ | .unlike f v => (∃ d, s.get? f = some d) ∧ ∃ t, v = .text t
  | .among f vs | .outside f vs =>
    ∃ d, s.get? f = some d ∧ vs ≠ [] ∧ ∀ v ∈ vs, d.kind.Reads v
  | _ => False

/-! ## Groups of leaves -/

namespace Filter

/-- The answers of conditions that are asked one after another: the first fault or the first answer
that is decisive, and the other truth value if there is none. -/
def inTurn (decisive : Bool) : List (Result Bool) → Result Bool
  | [] => .ok !decisive
  | .error e :: _ => .error e
  | .ok b :: rest => if b = decisive then .ok b else inTurn decisive rest

/-- What is asked about one field: the leaves of its tokens, and how they combine. -/
structure Group where
  junction : Junction
  leaves : List Predicate

/-- The answer of a group: some leaf has to hold in a disjunction, and all of them otherwise. -/
def Group.answer (g : Group) (row : Value) : Result Bool :=
  match g.junction with
  | .disjunction => inTurn true (g.leaves.map (·.holds row))
  | .conjunction => inTurn false (g.leaves.map (·.holds row))

/-- The filters stand for the groups, field by field in their order. A field without tokens has no
group; any other has its leaves, one for each token, and the junction given for it. -/
inductive Means (s : Schema) (junctions : List (String × Value)) :
    List (String × Value) → List Group → Prop
  | nil : Means s junctions [] []
  | blank {name : String} {raw : Value} {rest : List (String × Value)} {groups : List Group}
    (hname : s.declares name = true) (htokens : tokens raw = .ok [])
    (hrest : Means s junctions rest groups) : Means s junctions ((name, raw) :: rest) groups
  | field {name : String} {raw : Value} {rest : List (String × Value)} {groups : List Group}
    {f : Field} {ts : List String} {junction : Junction} {leaves : List Predicate}
    (hf : s.get? name = some f) (htokens : tokens raw = .ok ts) (hne : ts ≠ [])
    (hjunction : Junction.read ((Entries.get? name junctions).getD .null) name = .ok junction)
    (hleaves : List.Forall₂ (f.Reads name) ts leaves) (hrest : Means s junctions rest groups) :
    Means s junctions ((name, raw) :: rest) (⟨junction, leaves⟩ :: groups)

/-! ## Asking in turn -/

theorem holdsAll_eq_inTurn (parts : List Predicate) (row : Value) :
    Predicate.holdsAll parts row = inTurn false (parts.map (·.holds row)) := by
  induction parts with
  | nil => rw [Predicate.holdsAll]; rfl
  | cons p rest ih =>
      rw [Predicate.holdsAll, List.map_cons, ih]
      cases p.holds row with
      | error e => rfl
      | ok b => cases b <;> rfl

theorem holdsAny_eq_inTurn (parts : List Predicate) (row : Value) :
    Predicate.holdsAny parts row = inTurn true (parts.map (·.holds row)) := by
  induction parts with
  | nil => rw [Predicate.holdsAny]; rfl
  | cons p rest ih =>
      rw [Predicate.holdsAny, List.map_cons, ih]
      cases p.holds row with
      | error e => rfl
      | ok b => cases b <;> rfl

end Filter

/-- A token starts in one way: it is cut at its first colon. -/
theorem Operator.Starts.unique {op op' : Operator} {token raw raw' : String}
    (h : op.Starts token raw) (h' : op'.Starts token raw') : op = op' ∧ raw = raw' := by
  obtain ⟨name, htoken, hcolon, hread⟩ := h
  obtain ⟨name', htoken', hcolon', hread'⟩ := h'
  have hcut := Text.cutAt_eq_some_iff.2 ⟨htoken, hcolon⟩
  have hcut' := Text.cutAt_eq_some_iff.2 ⟨htoken', hcolon'⟩
  obtain ⟨rfl, rfl⟩ := Prod.mk.inj (Option.some.inj (hcut.symm.trans hcut'))
  exact ⟨Option.some.inj (hread.symm.trans hread'), rfl⟩

namespace Field

variable {f : Field} {name token : String} {q : Predicate}

/-- The leaf of a token is in normal form and not neutral. -/
theorem Reads.normal (h : f.Reads name token q) : q.normal = q ∧ q.isAlways = false := by
  obtain ⟨op, raw, -, -, hsays⟩ := h
  cases hsays <;> exact ⟨by simp only [Predicate.normal], rfl⟩

/-- **The leaf of a token can be written**: a field reads no number that is too long. -/
theorem Says.isWritable {op : Operator} {raw : String} (h : f.Says name op raw q) :
    q.isWritable = true := by
  cases h with
  | equal hv | differ hv | order _ hv => exact (Kind.reads_of_coerce hv).isShowable
  | like | likeAnyCase | unlike => rfl
  | among _ hvs | outside _ hvs =>
      refine List.all_eq_true.2 fun v hv => ?_
      obtain ⟨part, -, hread⟩ := exists_of_mem_forall₂ hvs hv
      exact (Kind.reads_of_coerce hread).isShowable

theorem Says.unique {op : Operator} {raw : String} {q' : Predicate} (h : f.Says name op raw q)
    (h' : f.Says name op raw q') : q = q' := by
  have hlisted : Relator.RightUnique fun part v => f.coerce (.text part) = .ok v :=
    fun part v w hv hw => Except.ok.inj (hv.symm.trans hw)
  cases h with
  | like | likeAnyCase | unlike =>
      cases h'
      rfl
  | equal hv =>
      cases h' with
      | equal hw => rw [Except.ok.inj (hv.symm.trans hw)]
  | differ hv =>
      cases h' with
      | differ hw => rw [Except.ok.inj (hv.symm.trans hw)]
  | order _ hv =>
      cases h' with
      | order _ hw => rw [Except.ok.inj (hv.symm.trans hw)]
  | among _ hvs =>
      cases h' with
      | among _ hws => rw [List.right_unique_forall₂' hlisted hvs hws]
  | outside _ hvs =>
      cases h' with
      | outside _ hws => rw [List.right_unique_forall₂' hlisted hvs hws]

/-- A token reads as one leaf. -/
theorem Reads.unique {q' : Predicate} (h : f.Reads name token q) (h' : f.Reads name token q') :
    q = q' := by
  obtain ⟨op, raw, hstarts, -, hsays⟩ := h
  obtain ⟨op', raw', hstarts', -, hsays'⟩ := h'
  obtain ⟨rfl, rfl⟩ := hstarts.unique hstarts'
  exact hsays.unique hsays'

theorem rightUnique_reads (f : Field) (name : String) : Relator.RightUnique (f.Reads name) :=
  fun _ _ _ => Reads.unique

theorem Reads.leaves (h : f.Reads name token q) : q.leaves = [q] := by
  obtain ⟨op, raw, -, -, hsays⟩ := h
  cases hsays <;> rfl

end Field

namespace Filter

/-- The predicate that the leaves of a group compose to. -/
def Group.predicate (g : Group) : Predicate :=
  match g.junction with
  | .disjunction => .disjoin g.leaves
  | .conjunction => .conjoin g.leaves

theorem Group.normal_predicate (g : Group) : g.predicate.normal = g.predicate := by
  rw [Group.predicate]
  split
  · exact Predicate.normal_disjoin g.leaves
  · exact Predicate.normal_conjoin g.leaves

theorem Group.leaves_predicate (g : Group) :
    g.predicate.leaves = g.leaves.flatMap Predicate.leaves := by
  rw [Group.predicate, ← Predicate.leavesOf_eq_flatMap]
  split
  · exact Predicate.leaves_disjoin g.leaves
  · exact Predicate.leaves_conjoin g.leaves

theorem Group.isWritable_predicate {g : Group} (h : ∀ q ∈ g.leaves, q.isWritable = true) :
    g.predicate.isWritable = true := by
  rw [Group.predicate]
  split
  · rwa [Predicate.isWritable_disjoin, Predicate.areWritable_iff]
  · rwa [Predicate.isWritable_conjoin, Predicate.areWritable_iff]

/-- A group of leaves that are in normal form answers as it says. -/
theorem Group.holds_predicate {g : Group} (hne : g.leaves ≠ [])
    (hleaves : ∀ q ∈ g.leaves, q.normal = q ∧ q.isAlways = false) (row : Value) :
    g.predicate.holds row = g.answer row := by
  have hnormal : g.leaves.map Predicate.normal = g.leaves :=
    (List.map_congr_left fun q hq => (hleaves q hq).1).trans (List.map_id _)
  rw [Group.predicate, Group.answer]
  cases g.junction with
  | disjunction =>
      refine (Predicate.holds_disjoin hne (fun q hq => ?_) row).trans ?_
      · rw [(hleaves q hq).1]
        exact (hleaves q hq).2
      · rw [hnormal, holdsAny_eq_inTurn]
  | conjunction =>
      refine (Predicate.holds_conjoin g.leaves row).trans ?_
      rw [hnormal, holdsAll_eq_inTurn]

/-- The groups of filters have leaves, all of them read from tokens of a declared field. -/
theorem Means.leaves {s : Schema} {junctions filters : List (String × Value)} {groups : List Group}
    (h : Means s junctions filters groups) : ∀ g ∈ groups, g.leaves ≠ [] ∧
      ∃ name f, s.get? name = some f ∧ ∀ q ∈ g.leaves, ∃ token, f.Reads name token q := by
  induction h with
  | nil => exact fun g hg => absurd hg List.not_mem_nil
  | blank _ _ _ ih => exact ih
  | @field name raw rest groups f ts junction leaves hf htokens hne hjunction hleaves hrest ih =>
      intro g hg
      rcases List.mem_cons.1 hg with rfl | hg
      · refine ⟨?_, name, f, hf, fun q hq => ?_⟩
        · rintro rfl
          exact hne (List.forall₂_nil_right_iff.1 hleaves)
        · obtain ⟨token, -, hread⟩ := exists_of_mem_forall₂ hleaves hq
          exact ⟨token, hread⟩
      · exact ih g hg

/-- **Filters stand for one list of groups.** -/
theorem Means.unique {s : Schema} {junctions filters : List (String × Value)}
    {groups groups' : List Group} (h : Means s junctions filters groups)
    (h' : Means s junctions filters groups') : groups = groups' := by
  induction h generalizing groups' with
  | nil =>
      cases h'
      rfl
  | blank _ htokens _ ih =>
      cases h' with
      | blank _ _ hrest => exact ih hrest
      | field _ htokens' hne => exact absurd (Except.ok.inj (htokens'.symm.trans htokens)) hne
  | field hf htokens hne hjunction hleaves _ ih =>
      cases h' with
      | blank _ htokens' => exact absurd (Except.ok.inj (htokens.symm.trans htokens')) hne
      | field hf' htokens' _ hjunction' hleaves' hrest =>
          obtain rfl := Option.some.inj (hf.symm.trans hf')
          obtain rfl := Except.ok.inj (htokens.symm.trans htokens')
          obtain rfl := Except.ok.inj (hjunction.symm.trans hjunction')
          obtain rfl := List.right_unique_forall₂' (Field.rightUnique_reads _ _) hleaves hleaves'
          rw [ih hrest]

/-- **The conjunction of the groups of filters is asked group by group.** -/
theorem Means.holds_conjoin {s : Schema} {junctions filters : List (String × Value)}
    {groups : List Group} (h : Means s junctions filters groups) (row : Value) :
    (Predicate.conjoin (groups.map Group.predicate)).holds row =
      inTurn false (groups.map (·.answer row)) := by
  rw [Predicate.holds_conjoin, holdsAll_eq_inTurn, List.map_map, List.map_map]
  refine congrArg (inTurn false) (List.map_congr_left fun g hg => ?_)
  obtain ⟨hne, name, f, -, hreads⟩ := h.leaves g hg
  change g.predicate.normal.holds row = g.answer row
  rw [g.normal_predicate]
  apply Group.holds_predicate hne
  intro q hq
  obtain ⟨token, hread⟩ := hreads q hq
  exact hread.normal

end Filter

/-! ## What is compiled -/

/-- A schema reads for a declared field what the field reads. -/
theorem Schema.coerce_eq_ok_iff {s : Schema} {name : String} {f : Field}
    (hf : s.get? name = some f) {raw v : Value} :
    s.coerce name raw = .ok v ↔ f.coerce raw = .ok v := by
  simp only [Schema.coerce, hf]
  cases f.coerce raw with
  | error why => exact iff_of_false (rejectWith_ne_ok _ _) (by simp)
  | ok w => rw [Except.ok.injEq, Except.ok.injEq]

namespace Filter

variable {s : Schema} {name : String} {f : Field}

theorem forall₂_of_coerceAll (hf : s.get? name = some f) {parts : List String} {vs : List Value}
    (h : coerceAll s name parts = .ok vs) :
    List.Forall₂ (fun part v => f.coerce (.text part) = .ok v) parts vs := by
  have hread : List.Forall₂ (fun part v => s.coerce name (.text part) = .ok v) parts vs :=
    Result.forall₂_of_readAll _ (coerceAll s name) rfl (fun _ _ => rfl) h
  exact hread.imp fun part v => (Schema.coerce_eq_ok_iff hf).1

theorem listedValues_eq_ok_iff {raw : String} {parts : List String} :
    listedValues name (.text raw) = .ok parts ↔ parts = Text.parts ',' raw ∧ parts ≠ [] := by
  rw [listedValues]
  split
  · next hnil =>
      rw [List.isEmpty_iff] at hnil
      refine iff_of_false (rejectWith_ne_ok _ _) ?_
      rintro ⟨rfl, hne⟩
      exact hne hnil
  · next hne =>
      rw [List.isEmpty_iff] at hne
      rw [Except.ok.injEq]
      constructor
      · rintro rfl
        exact ⟨rfl, hne⟩
      · exact fun h => h.1.symm

/-- The values of a multiple term are read part by part, and there is one. -/
theorem forall₂_of_listed (hf : s.get? name = some f) {raw : String} {parts : List String}
    {vs : List Value} (hparts : listedValues name (.text raw) = .ok parts)
    (hvs : coerceAll s name parts = .ok vs) :
    vs ≠ [] ∧
      List.Forall₂ (fun part v => f.coerce (.text part) = .ok v) (Text.parts ',' raw) vs := by
  obtain ⟨rfl, hne⟩ := listedValues_eq_ok_iff.1 hparts
  have hread := forall₂_of_coerceAll hf hvs
  refine ⟨?_, hread⟩
  rintro rfl
  exact hne (List.forall₂_nil_right_iff.1 hread)

/-- The leaf of a term is the one that its operator says. -/
theorem says_of_leaf (hf : s.get? name = some f) {op : Operator} {raw : String} {q : Predicate}
    (h : leaf s name f op (.text raw) = .ok q) : f.allows op = true ∧ f.Says name op raw q := by
  unfold leaf at h
  split at h
  · exact absurd h (reject_ne_ok _ _)
  · next hallows =>
      refine ⟨by simpa using hallows, ?_⟩
      cases op with
      | like =>
          obtain rfl := Except.ok.inj h
          exact .like raw
      | likeAnyCase =>
          obtain rfl := Except.ok.inj h
          exact .likeAnyCase raw
      | unlike =>
          obtain rfl := Except.ok.inj h
          exact .unlike raw
      | equal =>
          obtain ⟨v, hv, h⟩ := Result.bind_eq_ok.1 h
          obtain rfl := Except.ok.inj h
          exact .equal ((Schema.coerce_eq_ok_iff hf).1 hv)
      | differ =>
          obtain ⟨v, hv, h⟩ := Result.bind_eq_ok.1 h
          obtain rfl := Except.ok.inj h
          exact .differ ((Schema.coerce_eq_ok_iff hf).1 hv)
      | order c =>
          obtain ⟨v, hv, h⟩ := Result.bind_eq_ok.1 h
          obtain rfl := Except.ok.inj h
          exact .order c ((Schema.coerce_eq_ok_iff hf).1 hv)
      | among =>
          obtain ⟨parts, hparts, h⟩ := Result.bind_eq_ok.1 h
          obtain ⟨vs, hvs, h⟩ := Result.bind_eq_ok.1 h
          obtain rfl := Except.ok.inj h
          obtain ⟨hne, hread⟩ := forall₂_of_listed hf hparts hvs
          exact .among hne hread
      | outside =>
          obtain ⟨parts, hparts, h⟩ := Result.bind_eq_ok.1 h
          obtain ⟨vs, hvs, h⟩ := Result.bind_eq_ok.1 h
          obtain rfl := Except.ok.inj h
          obtain ⟨hne, hread⟩ := forall₂_of_listed hf hparts hvs
          exact .outside hne hread

/-- The term of a token is the operator that the token starts with and the text after the colon. -/
theorem starts_of_readTerm {token : String} {t : Operator × Value}
    (h : Clause.readTerm name token = .ok t) :
    ∃ op raw, t = (op, .text raw) ∧ op.Starts token raw := by
  unfold Clause.readTerm at h
  split at h
  · exact absurd h (reject_ne_ok _ _)
  · next before raw hcut =>
      split at h
      · exact absurd h (reject_ne_ok _ _)
      · next op hop =>
          obtain rfl := Except.ok.inj h
          obtain ⟨htoken, hcolon⟩ := Text.cutAt_eq_some_iff.1 hcut
          exact ⟨op, raw, rfl, before, htoken, hcolon, hop⟩

theorem forall₂_of_readTerms {ts : List String} {terms : List (Operator × Value)}
    (h : Clause.readTerms name ts = .ok terms) :
    List.Forall₂ (fun token t => Clause.readTerm name token = .ok t) ts terms :=
  Result.forall₂_of_readAll _ (Clause.readTerms name) rfl (fun _ _ => rfl) h

theorem forall₂_of_leaves {terms : List (Operator × Value)} {qs : List Predicate}
    (h : leaves s name f terms = .ok qs) :
    List.Forall₂ (fun t q => leaf s name f t.1 t.2 = .ok q) terms qs :=
  Result.forall₂_of_readAll _ (leaves s name f) rfl (fun _ _ => rfl) h

/-- The leaves of terms are read from the tokens of the terms. -/
theorem reads_of_leaves (hf : s.get? name = some f) {ts : List String}
    {terms : List (Operator × Value)} {qs : List Predicate}
    (hterms : Clause.readTerms name ts = .ok terms) (hleaves : leaves s name f terms = .ok qs) :
    List.Forall₂ (f.Reads name) ts qs := by
  have hts := forall₂_of_readTerms hterms
  have hqs := forall₂_of_leaves hleaves
  clear hterms hleaves
  induction hts generalizing qs with
  | nil =>
      cases hqs
      exact .nil
  | cons ht _ ih =>
      cases hqs with
      | cons hq hrest =>
          obtain ⟨op, raw, rfl, hstarts⟩ := starts_of_readTerm ht
          obtain ⟨hallows, hsays⟩ := says_of_leaf hf hq
          exact .cons ⟨op, raw, hstarts, hallows, hsays⟩ (ih hrest)

/-- The parts of a clause are those that its field, its tokens and its junction read as. -/
theorem parts_of_read {raw junction : Value} {c : Clause}
    (h : Clause.read name raw junction = .ok c) :
    ∃ ts j, tokens raw = .ok ts ∧ Junction.read junction name = .ok j ∧
      Clause.readTerms name ts = .ok c.terms ∧ c.field = name ∧ c.junction = j := by
  obtain ⟨ts, hts, h⟩ := Result.bind_eq_ok.1 h
  obtain ⟨terms, hterms, h⟩ := Result.bind_eq_ok.1 h
  obtain ⟨j, hj, h⟩ := Result.bind_eq_ok.1 h
  obtain rfl := Except.ok.inj h
  exact ⟨ts, j, hts, hj, hterms, rfl, rfl⟩

/-- A clause becomes the predicate of a group of the leaves of its terms. -/
theorem group_of_clausePredicate {c : Clause} {p : Predicate}
    (h : clausePredicate s c = .ok p) :
    ∃ f qs, s.get? c.field = some f ∧ leaves s c.field f c.terms = .ok qs ∧
      p = Group.predicate ⟨c.junction, qs⟩ := by
  unfold clausePredicate at h
  split at h
  · exact absurd h (reject_ne_ok _ _)
  · next f hf =>
      obtain ⟨qs, hqs, h⟩ := Result.bind_eq_ok.1 h
      refine ⟨f, qs, hf, hqs, ?_⟩
      rw [← Except.ok.inj h, Group.predicate]
      cases c.junction <;> rfl

/-- **The predicates of the clauses of filters are those of the groups that the filters mean.** -/
theorem exists_groups {junctions filters : List (String × Value)} {cs : List Clause}
    {parts : List Predicate} (hcs : clauses s junctions filters = .ok cs)
    (hparts : clausePredicates s cs = .ok parts) :
    ∃ groups, Means s junctions filters groups ∧ parts = groups.map Group.predicate := by
  induction filters generalizing cs parts with
  | nil =>
      obtain rfl := Except.ok.inj hcs
      obtain rfl := Except.ok.inj hparts
      exact ⟨[], .nil, rfl⟩
  | cons filter rest ih =>
      obtain ⟨name, raw⟩ := filter
      unfold clauses at hcs
      split at hcs
      · next hname =>
          obtain ⟨c, hc, hcs⟩ := Result.bind_eq_ok.1 hcs
          obtain ⟨others, hothers, hcs⟩ := Result.bind_eq_ok.1 hcs
          obtain rfl := Except.ok.inj hcs
          obtain ⟨ts, j, hts, hj, hterms, hfield, hjunction⟩ := parts_of_read hc
          split at hparts
          -- a clause without terms is left out
          · next hempty =>
              rw [List.isEmpty_iff.1 hempty] at hterms
              obtain rfl := List.forall₂_nil_right_iff.1 (forall₂_of_readTerms hterms)
              obtain ⟨groups, hmeans, hgroups⟩ := ih hothers hparts
              exact ⟨groups, .blank hname hts hmeans, hgroups⟩
          · next hterm =>
              obtain ⟨p, hp, hparts⟩ := Result.bind_eq_ok.1 hparts
              obtain ⟨ps, hps, hparts⟩ := Result.bind_eq_ok.1 hparts
              obtain rfl := Except.ok.inj hparts
              obtain ⟨groups, hmeans, hgroups⟩ := ih hothers hps
              obtain ⟨f, qs, hf, hqs, rfl⟩ := group_of_clausePredicate hp
              rw [hfield] at hf hqs
              refine ⟨⟨j, qs⟩ :: groups, .field hf hts ?_ hj (reads_of_leaves hf hterms hqs) hmeans, ?_⟩
              · rintro rfl
                exact hterm (List.isEmpty_iff.2 (Except.ok.inj hterms).symm)
              · rw [hjunction, hgroups, List.map_cons]
      · exact absurd hcs (reject_ne_ok _ _)

end Filter

/-- The raw values of the terms are texts. -/
def Clause.IsText (c : Clause) : Prop :=
  ∀ t ∈ c.terms, ∃ s, t.2 = .text s

namespace Clause

theorem isText_of_read {field : String} {raw junction : Value} {c : Clause}
    (h : read field raw junction = .ok c) : c.IsText := by
  obtain ⟨ts, j, -, -, hterms, -⟩ := Filter.parts_of_read h
  intro t ht
  obtain ⟨token, -, htoken⟩ :=
    exists_of_mem_forall₂ (Filter.forall₂_of_readTerms hterms) ht
  obtain ⟨op, s, rfl, -⟩ := Filter.starts_of_readTerm htoken
  exact ⟨s, rfl⟩

end Clause

namespace Filter

variable {s : Schema}

theorem isText_of_clauses {junctions : List (String × Value)} :
    ∀ {filters : List (String × Value)} {cs : List Clause},
      clauses s junctions filters = .ok cs → ∀ c ∈ cs, c.IsText := by
  intro filters
  induction filters with
  | nil =>
      intro cs h c hc
      obtain rfl := Except.ok.inj h
      exact absurd hc List.not_mem_nil
  | cons filter rest ih =>
      obtain ⟨field, raw⟩ := filter
      intro cs h c hc
      unfold clauses at h
      split at h
      · obtain ⟨first, hfirst, h⟩ := Result.bind_eq_ok.1 h
        obtain ⟨others, hothers, h⟩ := Result.bind_eq_ok.1 h
        obtain rfl := Except.ok.inj h
        split at hc
        · exact ih hothers c hc
        · rcases List.mem_cons.1 hc with rfl | hc
          · exact Clause.isText_of_read hfirst
          · exact ih hothers c hc
      · exact absurd h (reject_ne_ok _ _)

/-- The predicate of clauses whose raw values are texts can be written. -/
theorem isWritable_of_predicate {cs : List Clause} {p : Predicate} (h : predicate s cs = .ok p)
    (htext : ∀ c ∈ cs, c.IsText) : p.isWritable = true := by
  obtain ⟨parts, hparts, h⟩ := Result.bind_eq_ok.1 h
  obtain rfl := Except.ok.inj h
  rw [Predicate.isWritable_conjoin, Predicate.areWritable_iff]
  intro part hpart
  have hread := Result.forall₂_of_readAll _ (clausePredicates s) rfl (fun _ _ => rfl) hparts
  obtain ⟨c, hc, hcompiled⟩ := exists_of_mem_forall₂ hread hpart
  obtain ⟨f, qs, hf, hqs, rfl⟩ := group_of_clausePredicate hcompiled
  refine Group.isWritable_predicate fun q hq => ?_
  obtain ⟨t, ht, hleaf⟩ := exists_of_mem_forall₂ (forall₂_of_leaves hqs) hq
  obtain ⟨raw, hraw⟩ := htext c hc t ht
  rw [hraw] at hleaf
  exact (says_of_leaf hf hleaf).2.isWritable

/-- Clauses are compiled to their predicate, once that has been written into the log. -/
theorem result_compileClauses (s : Schema) (cs : List Clause) :
    (compileClauses s cs).result = predicate s cs >>= fun p => p.written.map fun _ => p := by
  rw [compileClauses, Traced.result_bind, Traced.result_liftM]
  cases predicate s cs with
  | error e => rfl
  | ok p =>
      rw [Result.ok_bind, Result.ok_bind]
      split
      · rw [Traced.result_bind, Traced.result_liftM]
        cases p.written <;> rfl
      · next halways =>
          cases p with
          | always => rfl
          | _ => exact absurd rfl halways

/-- Clauses whose raw values are texts are compiled to their predicate; the note changes nothing. -/
theorem result_compileClauses_of_isText {cs : List Clause} (htext : ∀ c ∈ cs, c.IsText) :
    (compileClauses s cs).result = predicate s cs := by
  rw [result_compileClauses]
  cases h : predicate s cs with
  | error e => rfl
  | ok p =>
      rw [Result.ok_bind, Predicate.written_of_isWritable (isWritable_of_predicate h htext)]
      rfl

/-- A compiled filter is the conjunction of the groups that the filters mean. -/
theorem exists_groups_of_compile {filters junctions : List (String × Value)} {p : Predicate}
    (h : (compile s filters junctions).result = .ok p) :
    ∃ groups, Means s junctions filters groups ∧ p = .conjoin (groups.map Group.predicate) := by
  rw [compile, Traced.result_bind] at h
  obtain ⟨cs, hcs, h⟩ := Result.bind_eq_ok.1 h
  rw [result_compileClauses_of_isText (isText_of_clauses hcs)] at h
  obtain ⟨parts, hparts, h⟩ := Result.bind_eq_ok.1 h
  obtain ⟨groups, hmeans, rfl⟩ := exists_groups hcs hparts
  exact ⟨groups, hmeans, (Except.ok.inj h).symm⟩

/-- **Every leaf of a compiled filter** is read from a token of a declared field. -/
theorem exists_reads_of_compile {filters junctions : List (String × Value)} {p q : Predicate}
    (h : (compile s filters junctions).result = .ok p) (hq : q ∈ p.leaves) :
    ∃ name f token, s.get? name = some f ∧ f.Reads name token q := by
  obtain ⟨groups, hmeans, rfl⟩ := exists_groups_of_compile h
  rw [Predicate.leaves_conjoin, Predicate.leavesOf_eq_flatMap] at hq
  obtain ⟨p', hp', hq⟩ := List.mem_flatMap.1 hq
  obtain ⟨g, hg, rfl⟩ := List.mem_map.1 hp'
  rw [Group.leaves_predicate] at hq
  obtain ⟨leaf, hleaf, hq⟩ := List.mem_flatMap.1 hq
  obtain ⟨-, name, f, hf, hreads⟩ := hmeans.leaves g hg
  obtain ⟨token, hread⟩ := hreads leaf hleaf
  rw [hread.leaves] at hq
  obtain rfl := List.mem_singleton.1 hq
  exact ⟨name, f, token, hf, hread⟩

theorem types_of_says {name raw : String} {f : Field} (hf : s.get? name = some f) {op : Operator}
    {q : Predicate} (h : f.Says name op raw q) : s.Types q := by
  cases h with
  | equal hv | differ hv | order _ hv => exact ⟨f, hf, Kind.reads_of_coerce hv⟩
  | like | likeAnyCase | unlike => exact ⟨⟨f, hf⟩, raw, rfl⟩
  | among hne hvs | outside hne hvs =>
      refine ⟨f, hf, hne, ?_⟩
      intro v hv
      obtain ⟨part, -, hread⟩ := exists_of_mem_forall₂ hvs hv
      exact Kind.reads_of_coerce hread

/-- **Each leaf of a compiled filter** asks a declared field about values in the form of its kind. -/
theorem types_of_compile {filters junctions : List (String × Value)} {p : Predicate}
    (h : (compile s filters junctions).result = .ok p) : ∀ q ∈ p.leaves, s.Types q := by
  intro q hq
  obtain ⟨name, f, token, hf, op, raw, -, -, hsays⟩ := exists_reads_of_compile h hq
  exact types_of_says hf hsays

end Filter

/-! ## Filtered entries of a ledger -/

namespace Ledger

/-- Entries of a ledger have a state, an amount, and a remark that may be missing. -/
def schema : Schema where
  entity := "entries"
  fields := [
    ("state", ⟨.choice, [.equal, .among, .differ, .outside], true, false,
      ["open", "paid", "void"], false⟩),
    ("amount", ⟨.number, [.equal, .order .gt, .order .gte, .among, .order .lt, .order .lte, .differ,
      .outside], true, false, [], false⟩),
    ("remark", ⟨.text, [.equal, .unlike], false, true, [], true⟩)]
  tieBreaker := "amount"
  defaultSort := []

/-- The state has to be one of two and the amount within bounds; the remark is left open. -/
def filters : List (String × Value) :=
  [("state", .text "eq:open,eq:paid"), ("remark", .text " "), ("amount", .text "gte:10,lt:20")]

/-- The states given are alternatives. -/
def junctions : List (String × Value) :=
  [("state", .text "or")]

/-- The alternatives stay one part of the conjunction, while the bounds join it one by one. -/
def predicate : Predicate :=
  .all [.any [.equal "state" (.text "open"), .equal "state" (.text "paid")],
    .order "amount" .gte (.int 10), .order "amount" .lt (.int 20)]

theorem result_compile : (Filter.compile schema filters junctions).result = .ok predicate := by
  cbv

end Ledger

namespace Filter

variable {s : Schema}

/-- **What filters mean.** Compiled filters answer on every row as the groups of leaves do that the
filters stand for, asked from left to right: the groups one after another until one does not hold,
the leaves of a group until one holds if its junction is a disjunction and until one does not hold
otherwise. The first fault on the way is the fault of the whole. There are such groups, and no
others. -/
theorem answers_compile {filters junctions : List (String × Value)} {p : Predicate}
    (h : (compile s filters junctions).result = .ok p) :
    ∃ groups, Means s junctions filters groups ∧
      (∀ others, Means s junctions filters others → others = groups) ∧
      ∀ row, p.holds row = inTurn false (groups.map (·.answer row)) := by
  obtain ⟨groups, hmeans, rfl⟩ := exists_groups_of_compile h
  exact ⟨groups, hmeans, fun others hothers => hothers.unique hmeans, hmeans.holds_conjoin⟩

/-- Entries of a ledger are asked for one of two states and, apart from that, for their amount. -/
theorem answers_compile_ledger :
    (compile Ledger.schema Ledger.filters Ledger.junctions).result = .ok Ledger.predicate ∧
    ∃ groups, Means Ledger.schema Ledger.junctions Ledger.filters groups ∧
      (∀ others, Means Ledger.schema Ledger.junctions Ledger.filters others → others = groups) ∧
      ∀ row, Ledger.predicate.holds row = inTurn false (groups.map (·.answer row)) :=
  ⟨Ledger.result_compile, answers_compile Ledger.result_compile⟩

end Filter

end Listing
