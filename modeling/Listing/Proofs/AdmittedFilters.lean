import Listing.Proofs.CompositionLaws
import Listing.Proofs.FilterMeaning

/-!
# Schemas admit the filters compiled for them

What a field reads from a text it accepts, and it reads an accepted value as it is
(`Kind.accepts_of_coerce`, `Kind.coerce_of_accepts`). Patterns are not read at all: they fit because
no consistent schema allows them on a field that is not a text field
(`Schema.kind_eq_text_of_isLike`). So a schema that could be declared admits whatever its filters
compile to, leaf by leaf (`Filter.admits_compile`).
-/

set_option autoImplicit false

namespace Listing

/-! ## Reading and accepting -/

namespace Kind

variable {k : Kind} {choices : List String} {v : Value}

/-- Only a choice depends on more than the form of its values, and a choice is never read. -/
theorem accepts_of_read {s : String} (h : k.read choices s = .ok v) :
    k.accepts choices v = true := by
  have hreads := reads_of_read h
  cases k with
  | choice => exact absurd h (by simp [read])
  | text | number | date | boolean | uuid =>
      cases v <;> first | rfl | exact absurd hreads id

/-- **What a kind reads from a text it accepts.** -/
theorem accepts_of_coerce {s : String} (h : k.coerce choices (.text s) = .ok v) :
    k.accepts choices v = true := by
  rw [coerce_text] at h
  split at h
  · next haccepts =>
      obtain rfl := Except.ok.inj h
      exact haccepts
  · exact accepts_of_read h

theorem Reads.unwrapped (h : k.Reads v) : v.unwrapped = v := by
  cases v with
  | member w => cases k <;> exact absurd h id
  | _ => rfl

/-- **A kind reads a value that it accepts as it is**, unless it is a member of an enumeration. -/
theorem coerce_of_accepts (h : k.accepts choices v = true) (hv : v.unwrapped = v) :
    k.coerce choices v = .ok v := by
  rw [coerce, hv, if_pos h]

end Kind

namespace Field

variable {f : Field} {raw : String} {v : Value}

theorem accepts_of_coerce (h : f.coerce (.text raw) = .ok v) : f.accepts v = true :=
  Kind.accepts_of_coerce h

/-- What a field reads from a text stays as it is when the field reads it again. -/
theorem coerce_of_coerce (h : f.coerce (.text raw) = .ok v) : f.coerce v = .ok v :=
  Kind.coerce_of_accepts (Kind.accepts_of_coerce h) (Kind.reads_of_coerce h).unwrapped

end Field

/-! ## Consistent schemas -/

theorem Entries.mem_of_get? {α : Type} {name : String} {a : α} {entries : List (String × α)}
    (h : Entries.get? name entries = some a) : (name, a) ∈ entries := by
  induction entries with
  | nil => exact absurd h (by simp [Entries.get?])
  | cons e rest ih =>
      obtain ⟨other, b⟩ := e
      rw [Entries.get?] at h
      split at h
      · next hname =>
          obtain rfl := hname
          obtain rfl := Option.some.inj h
          exact List.mem_cons_self
      · exact List.mem_cons_of_mem _ (ih h)

namespace Schema

variable {s : Schema} {name : String} {f : Field}

theorem contradiction?_of_declare {entity tieBreaker : String} {fields : List FieldText}
    {defaultSort : List String} (h : declare entity fields tieBreaker defaultSort = .ok s) :
    s.contradiction? = none := by
  obtain ⟨entries, -, h⟩ := Result.bind_eq_ok.1 h
  dsimp only at h
  cases hreason : contradiction? ⟨entity, Entries.ofList entries, tieBreaker, defaultSort⟩ with
  | none =>
      rw [hreason] at h
      obtain rfl := Except.ok.inj h
      exact hreason
  | some reason =>
      rw [hreason] at h
      exact absurd h (reject_ne_ok _ _)

/-- **What a consistent schema is**: it has a name, no field of it contradicts itself, its tie-breaker
may be sorted, and no token of its default sort contradicts it. -/
theorem contradiction?_eq_none_iff : s.contradiction? = none ↔ s.entity ≠ "" ∧
    (∀ e ∈ s.fields, fieldContradiction? e.1 e.2 = none) ∧ s.sorts s.tieBreaker = true ∧
    ∀ token ∈ s.defaultSort, s.sortContradiction? token = none := by
  rw [contradiction?, ← List.findSome?_eq_none_iff, ← List.findSome?_eq_none_iff]
  by_cases hentity : s.entity = ""
  · simp [hentity]
  cases s.fields.findSome? fun e => fieldContradiction? e.1 e.2 with
  | some reason => simp [hentity]
  | none => cases s.sorts s.tieBreaker <;> simp [hentity]

/-- No field of a consistent schema contradicts itself. -/
theorem fieldContradiction?_of_get? (h : s.contradiction? = none) (hf : s.get? name = some f) :
    fieldContradiction? name f = none :=
  (contradiction?_eq_none_iff.1 h).2.1 (name, f) (Entries.mem_of_get? hf)

/-- **In a consistent schema only text fields allow patterns.** -/
theorem kind_eq_text_of_isLike (h : s.contradiction? = none) (hf : s.get? name = some f)
    {op : Operator} (hallows : f.allows op = true) (hlike : op.isLike = true) : f.kind = .text := by
  have hnone := fieldContradiction?_of_get? h hf
  have hpatterns : (f.operators.filter (·.isLike)).map (·.name) ≠ [] := by
    have hop : op ∈ f.operators.filter (·.isLike) :=
      List.mem_filter.2 ⟨List.contains_iff_mem.1 hallows, hlike⟩
    exact List.ne_nil_of_mem (List.mem_map_of_mem hop)
  by_contra hkind
  unfold fieldContradiction? at hnone
  simp only at hnone
  split at hnone
  · exact absurd hnone (by simp)
  · rw [if_pos ⟨hpatterns, hkind⟩] at hnone
    exact absurd hnone (by simp)

end Schema

/-! ## What a schema admits -/

namespace Predicate

/-- The operator of a leaf. -/
def operator? : Predicate → Option Operator
  | equal _ _ => some .equal
  | differ _ _ => some .differ
  | order _ c _ => some (.order c)
  | like _ _ false => some .like
  | like _ _ true => some .likeAnyCase
  | unlike _ _ => some .unlike
  | among _ _ => some .among
  | outside _ _ => some .outside
  | _ => none

/-- The values that a leaf compares with. -/
def values : Predicate → List Value
  | equal _ v | differ _ v | order _ _ v | like _ v _ | unlike _ v => [v]
  | among _ vs | outside _ vs => vs
  | _ => []

end Predicate

namespace Schema

variable {s : Schema} {name raw : String} {f : Field} {op : Operator} {q : Predicate}

/-- The leaf asks a declared field, by an operator that the field allows, about one value at least,
and the schema reads each of the values for the field as it is. -/
def Admits (s : Schema) (q : Predicate) : Prop :=
  ∃ name f op, q.leafField? = some name ∧ s.get? name = some f ∧ q.operator? = some op ∧
    f.allows op = true ∧ q.values ≠ [] ∧ ∀ v ∈ q.values, s.coerce name v = .ok v

theorem admitValue_of_get? (hf : s.get? name = some f) {v : Value} (h : f.accepts v = true) :
    s.admitValue name v = .ok () := by
  simp only [admitValue, hf, h, if_true]

theorem admitValues_of_get? (hf : s.get? name = some f) {vs : List Value}
    (h : ∀ v ∈ vs, f.accepts v = true) : s.admitValues name vs = .ok () := by
  induction vs with
  | nil => rfl
  | cons v rest ih =>
      rw [admitValues, admitValue_of_get? hf (h v List.mem_cons_self), Result.ok_bind]
      exact ih fun w hw => h w (List.mem_cons_of_mem v hw)

theorem admitPattern_of_get? (hf : s.get? name = some f) (hkind : f.kind = .text)
    (pattern : String) : s.admitPattern name (.text pattern) = .ok () := by
  simp only [admitPattern, hf, hkind]

/-- The values of a leaf are what the field reads from texts, if it is a text field where the leaf
has a pattern. -/
theorem exists_coerce_of_says (hkind : op.isLike = true → f.kind = .text)
    (h : f.Says name op raw q) : ∀ v ∈ q.values, ∃ t, f.coerce (.text t) = .ok v := by
  have hpattern : op.isLike = true → f.coerce (.text raw) = .ok (.text raw) := by
    intro hlike
    rw [Field.coerce, hkind hlike]
    rfl
  intro v hv
  cases h with
  | equal hread | differ hread | order _ hread =>
      obtain rfl := List.mem_singleton.1 hv
      exact ⟨raw, hread⟩
  | like | likeAnyCase | unlike =>
      obtain rfl := List.mem_singleton.1 hv
      exact ⟨raw, hpattern rfl⟩
  | among _ hread | outside _ hread =>
      obtain ⟨part, -, hpart⟩ := exists_of_mem_forall₂ hread hv
      exact ⟨part, hpart⟩

theorem admits_of_says (hf : s.get? name = some f) (hallows : f.allows op = true)
    (hkind : op.isLike = true → f.kind = .text) (h : f.Says name op raw q) : s.Admits q := by
  have hvalues : ∀ v ∈ q.values, s.coerce name v = .ok v := by
    intro v hv
    obtain ⟨t, ht⟩ := exists_coerce_of_says hkind h v hv
    exact (coerce_eq_ok_iff hf).2 (Field.coerce_of_coerce ht)
  cases h with
  | among hne | outside hne => exact ⟨name, f, _, rfl, hf, rfl, hallows, hne, hvalues⟩
  | _ => exact ⟨name, f, _, rfl, hf, rfl, hallows, List.cons_ne_nil _ _, hvalues⟩

theorem validate_of_says (hf : s.get? name = some f) (hkind : op.isLike = true → f.kind = .text)
    (h : f.Says name op raw q) : s.validate q = .ok () := by
  have haccepts : ∀ v ∈ q.values, f.accepts v = true := by
    intro v hv
    obtain ⟨t, ht⟩ := exists_coerce_of_says hkind h v hv
    exact Field.accepts_of_coerce ht
  cases h with
  | equal | differ | order => exact admitValue_of_get? hf (haccepts _ (List.mem_singleton_self _))
  | like | likeAnyCase | unlike => exact admitPattern_of_get? hf (hkind rfl) raw
  | among | outside => exact admitValues_of_get? hf haccepts

/-- Leaf by leaf, a schema admits a predicate. -/
theorem validateAll_of_forall {ps : List Predicate} (h : ∀ p ∈ ps, s.validate p = .ok ()) :
    s.validateAll ps = .ok () := by
  induction ps with
  | nil => rfl
  | cons p rest ih =>
      rw [validateAll, h p List.mem_cons_self, Result.ok_bind]
      exact ih fun q hq => h q (List.mem_cons_of_mem p hq)

end Schema

/-! ## Admitted entries of a ledger -/

namespace Ledger

/-- The declarations of the fields. A remark may be compared as a whole or with a pattern. -/
def fields : List FieldText :=
  [⟨"state", "enum", none, true, false, ["open", "paid", "void"], false⟩,
    ⟨"amount", "number", none, true, false, [], false⟩,
    ⟨"remark", "string", some ["nlk", "eq"], false, true, [], true⟩]

theorem declare_fields : Schema.declare "entries" fields "amount" [] = .ok schema := by
  cbv

/-- Drafts and void entries are left out, and so are small amounts. -/
def exclusions : List (String × Value) :=
  [("remark", .list [.text "nlk:%draft%", .text "eq:nin:open"]),
    ("state", .text "ne:void"), ("amount", .text "gte: 10")]

def exclusion : Predicate :=
  .all [.unlike "remark" (.text "%draft%"), .equal "remark" (.text "nin:open"),
    .differ "state" (.text "void"), .order "amount" .gte (.int 10)]

theorem result_compile_exclusions :
    (Filter.compile schema exclusions []).result = .ok exclusion := by
  cbv

end Ledger

namespace Filter

/-- **Declared schemas admit the filters compiled for them.** The compiled predicate passes the check
of the schema, and each of its leaves asks a declared field, by an operator that the field allows,
about one value at least, all of which the field reads as they are. -/
theorem admits_compile {entity tieBreaker : String} {fields : List FieldText}
    {defaultSort : List String} {s : Schema}
    (hs : Schema.declare entity fields tieBreaker defaultSort = .ok s)
    {filters junctions : List (String × Value)} {p : Predicate}
    (h : (compile s filters junctions).result = .ok p) :
    s.validate p = .ok () ∧ ∀ q ∈ p.leaves, s.Admits q := by
  have hnone := Schema.contradiction?_of_declare hs
  have hleaf : ∀ q ∈ p.leaves, s.validate q = .ok () ∧ s.Admits q := by
    intro q hq
    obtain ⟨name, f, token, hf, op, raw, -, hallows, hsays⟩ := exists_reads_of_compile h hq
    have hkind := Schema.kind_eq_text_of_isLike hnone hf hallows
    exact ⟨Schema.validate_of_says hf hkind hsays, Schema.admits_of_says hf hallows hkind hsays⟩
  refine ⟨?_, fun q hq => (hleaf q hq).2⟩
  rw [← s.validateAll_leaves]
  exact Schema.validateAll_of_forall fun q hq => (hleaf q hq).1

/-- A ledger admits a pattern, a text that looks like a filter, a choice and a number. -/
theorem admits_compile_ledger :
    Schema.declare "entries" Ledger.fields "amount" [] = .ok Ledger.schema ∧
    (compile Ledger.schema Ledger.exclusions []).result = .ok Ledger.exclusion ∧
    Ledger.schema.validate Ledger.exclusion = .ok () ∧
    ∀ q ∈ Ledger.exclusion.leaves, Ledger.schema.Admits q :=
  ⟨Ledger.declare_fields, Ledger.result_compile_exclusions,
    admits_compile Ledger.declare_fields Ledger.result_compile_exclusions⟩

end Filter

end Listing
