import Listing.Proofs.FaultKinds
import Listing.Proofs.FilterMeaning
import Listing.Proofs.SearchHits
import Listing.SortOrder.Read

/-!
# Faults of clients

Filters, sorts and search terms are texts that a client may choose freely. Whatever the texts are,
reading them either succeeds or ends in a report on the query, of one of few kinds
(`rejects_client_texts`); no other fault gets through.
-/

set_option autoImplicit false

namespace Listing

/-- What a client gives in one place: a text, or several texts some of which may be missing. -/
inductive ClientInput where
  | one (t : String)
  | several (ts : List (Option String))

/-- A text that may be missing, as a value. -/
def textOrNull : Option String → Value
  | none => .null
  | some t => .text t

namespace ClientInput

/-- The input as a value. -/
def value : ClientInput → Value
  | one t => .text t
  | several ts => .list (ts.map textOrNull)

theorem isShowable_textOrNull {ts : List (Option String)} :
    ∀ v ∈ ts.map textOrNull, v.isShowable = true := by
  intro v hv
  obtain ⟨t, -, rfl⟩ := List.mem_map.1 hv
  cases t <;> rfl

theorem exists_tokens (i : ClientInput) : ∃ ts, Filter.tokens i.value = .ok ts := by
  cases i with
  | one t => exact ⟨_, rfl⟩
  | several ts => exact ⟨_, Filter.tokensOfItems_of_isShowable isShowable_textOrNull⟩

theorem exists_sortTokens (i : ClientInput) : ∃ ts, SortOrder.tokens i.value = .ok ts := by
  cases i with
  | one t => exact ⟨_, rfl⟩
  | several ts =>
      have hwritten := Value.displayedAll_of_isShowable (@isShowable_textOrNull ts)
      refine ⟨((ts.map textOrNull).map Value.display).flatMap (Text.parts ','), ?_⟩
      change (do return (← Value.displayedAll (ts.map textOrNull)).flatMap (Text.parts ',')) = _
      rw [hwritten]
      rfl

end ClientInput

/-- The fault reports a rejected query: it is of one of the kinds, which stand below the kind of
rejected queries and answer with the status of a bad request. -/
def Fault.Rejects (kinds : List ErrorKind) (e : Fault) : Prop :=
  ∃ r, e = .reported r ∧ r.kind ∈ kinds ∧ r.kind.parent? = some .query ∧ r.kind.status = 400

theorem failsOnly_reject {α : Type} {kinds : List ErrorKind}
    (hkinds : ∀ k ∈ kinds, k.parent? = some .query ∧ k.status = 400) {r : Report}
    (h : kinds.contains r.kind = true) :
    FailsOnly (Fault.Rejects kinds) (reject r : Result α) := by
  have hmem : r.kind ∈ kinds := List.contains_iff_mem.1 h
  exact failsOnly_error ⟨r, rfl, hmem, hkinds r.kind hmem⟩

/-! ## Filters -/

namespace Filter

/-- The kinds of reports on filters. -/
def rejections : List ErrorKind :=
  [.filterField, .filterOperator, .filterValue]

variable {α : Type}

theorem rejects {r : Report} (h : rejections.contains r.kind = true) :
    FailsOnly (Fault.Rejects rejections) (reject r : Result α) :=
  failsOnly_reject (by decide) h

theorem readJunction_rejects {raw : Value} (h : raw.isShowable = true) (field : String) :
    FailsOnly (Fault.Rejects rejections) (Junction.read raw field) := by
  rw [Junction.read.eq_def]
  split
  · exact failsOnly_ok _
  · rw [Value.displayed_of_isShowable h, Result.ok_bind]
    split
    · exact failsOnly_ok _
    · exact rejects rfl

/-- The junctions are texts, and a field without one has none. -/
theorem isShowable_junction (junctions : List (String × String)) (field : String) :
    ((Entries.get? field (junctions.map fun j => (j.1, Value.text j.2))).getD .null).isShowable =
      true := by
  induction junctions with
  | nil => rfl
  | cons j rest ih =>
      rw [List.map_cons, Entries.get?]
      split
      · rfl
      · exact ih

theorem readTerm_rejects (field token : String) :
    FailsOnly (Fault.Rejects rejections) (Clause.readTerm field token) := by
  rw [Clause.readTerm]
  split
  · exact rejects rfl
  · split
    · exact rejects rfl
    · exact failsOnly_ok _

theorem readTerms_rejects (field : String) : ∀ tokens : List String,
    FailsOnly (Fault.Rejects rejections) (Clause.readTerms field tokens)
  | [] => failsOnly_ok _
  | token :: rest => by
      rw [Clause.readTerms]
      exact (readTerm_rejects field token).bind_both (readTerms_rejects field rest) _

theorem readClause_rejects (field : String) (i : ClientInput) {junction : Value}
    (hjunction : junction.isShowable = true) :
    FailsOnly (Fault.Rejects rejections) (Clause.read field i.value junction) := by
  obtain ⟨tokens, htokens⟩ := i.exists_tokens
  rw [Clause.read, htokens, Result.ok_bind]
  exact (readTerms_rejects field tokens).bind_both (readJunction_rejects hjunction field) _

theorem clauses_rejects (s : Schema) (junctions : List (String × String)) :
    ∀ filters : List (String × ClientInput),
      FailsOnly (Fault.Rejects rejections)
        (clauses s (junctions.map fun j => (j.1, .text j.2))
          (filters.map fun f => (f.1, f.2.value)))
  | [] => failsOnly_ok _
  | (field, i) :: rest => by
      rw [List.map_cons, clauses]
      split
      · have hclause := readClause_rejects field i (isShowable_junction junctions field)
        exact hclause.bind_both (clauses_rejects s junctions rest) _
      · exact rejects rfl

/-- A text can be quoted in the report on it. -/
theorem coerce_rejects (s : Schema) (field raw : String) :
    FailsOnly (Fault.Rejects rejections) (s.coerce field (.text raw)) := by
  rw [Schema.coerce.eq_def]
  split
  · exact rejects rfl
  · split
    · exact failsOnly_ok _
    · exact rejects rfl

theorem coerceAll_rejects (s : Schema) (field : String) : ∀ raws : List String,
    FailsOnly (Fault.Rejects rejections) (coerceAll s field raws)
  | [] => failsOnly_ok _
  | raw :: rest => by
      rw [coerceAll]
      exact (coerce_rejects s field raw).bind_both (coerceAll_rejects s field rest) _

theorem listedValues_rejects (field raw : String) :
    FailsOnly (Fault.Rejects rejections) (listedValues field (.text raw)) := by
  rw [listedValues]
  split
  · exact rejects rfl
  · exact failsOnly_ok _

theorem leaf_rejects (s : Schema) (field : String) (f : Field) (op : Operator) (raw : String) :
    FailsOnly (Fault.Rejects rejections) (leaf s field f op (.text raw)) := by
  rw [leaf.eq_def]
  split
  · exact rejects rfl
  · cases op with
    | like | likeAnyCase | unlike => exact failsOnly_ok _
    | equal | differ | order => exact (coerce_rejects s field raw).bind_pure _
    | among | outside =>
        apply (listedValues_rejects field raw).bind
        intro raws _
        exact (coerceAll_rejects s field raws).bind_pure _

theorem leaves_rejects (s : Schema) (field : String) (f : Field) :
    ∀ {terms : List (Operator × Value)}, (∀ t ∈ terms, ∃ raw, t.2 = .text raw) →
      FailsOnly (Fault.Rejects rejections) (leaves s field f terms)
  | [], _ => failsOnly_ok _
  | (op, v) :: rest, htext => by
      obtain ⟨raw, rfl⟩ : ∃ raw, v = .text raw := htext (op, v) List.mem_cons_self
      rw [leaves]
      have hrest := leaves_rejects s field f fun t ht => htext t (List.mem_cons_of_mem _ ht)
      exact (leaf_rejects s field f op raw).bind_both hrest _

theorem clausePredicate_rejects (s : Schema) {c : Clause} (hc : c.IsText) :
    FailsOnly (Fault.Rejects rejections) (clausePredicate s c) := by
  rw [clausePredicate.eq_def]
  split
  · exact rejects rfl
  · exact (leaves_rejects s c.field _ hc).bind_pure _

theorem clausePredicates_rejects (s : Schema) : ∀ {cs : List Clause}, (∀ c ∈ cs, c.IsText) →
    FailsOnly (Fault.Rejects rejections) (clausePredicates s cs)
  | [], _ => failsOnly_ok _
  | c :: rest, htext => by
      rw [clausePredicates]
      have hrest := clausePredicates_rejects s fun c hc => htext c (List.mem_cons_of_mem _ hc)
      exact (clausePredicate_rejects s (htext c List.mem_cons_self)).bind_both hrest _

/-- The filters of a client are compiled or rejected. -/
theorem compile_rejects (s : Schema) (filters : List (String × ClientInput))
    (junctions : List (String × String)) :
    FailsOnly (Fault.Rejects rejections)
      (compile s (filters.map fun f => (f.1, f.2.value))
        (junctions.map fun j => (j.1, .text j.2))).result := by
  rw [compile, Traced.result_bind]
  apply (clauses_rejects s junctions filters).bind
  intro cs hcs
  rw [result_compileClauses_of_isText (isText_of_clauses hcs)]
  exact (clausePredicates_rejects s (isText_of_clauses hcs)).bind_pure _

end Filter

/-! ## Sorts -/

namespace SortOrder

/-- The kinds of reports on sorts. -/
def rejections : List ErrorKind :=
  [.sortField, .sortDirection]

variable {α : Type}

theorem rejects {r : Report} (h : rejections.contains r.kind = true) :
    FailsOnly (Fault.Rejects rejections) (reject r : Result α) :=
  failsOnly_reject (by decide) h

theorem readKey_rejects (s : Schema) (seen : List String) (token : String) :
    FailsOnly (Fault.Rejects rejections) (readKey s seen token) := by
  rw [readKey.eq_def]
  dsimp only
  -- every branch but the last is a report
  repeat' split
  all_goals first
    | exact rejects rfl
    | exact failsOnly_ok _

theorem readKeys_rejects (s : Schema) : ∀ (seen tokens : List String),
    FailsOnly (Fault.Rejects rejections) (readKeys s seen tokens)
  | _, [] => failsOnly_ok _
  | seen, token :: rest => by
      rw [readKeys]
      apply (readKey_rejects s seen token).bind
      intro key _
      exact (readKeys_rejects s (key.field :: seen) rest).bind_pure _

/-- The sort of a client is read or rejected; without one the default sort of the schema is read in
the same way. -/
theorem read_rejects (s : Schema) {raw : Value} (hraw : ∃ ts, tokens raw = .ok ts) :
    FailsOnly (Fault.Rejects rejections) (read s raw) := by
  obtain ⟨ts, hts⟩ := hraw
  rw [read, hts, Result.ok_bind]
  apply (readKeys_rejects s [] ts).bind
  intro requested _
  split
  · exact (readKeys_rejects s [] s.defaultSort).bind_pure _
  · exact failsOnly_ok _

end SortOrder

/-! ## All that a client says -/

theorem Search.exists_compiled (s : Search) (term : Option String) :
    ∃ p, (s.compile (textOrNull term)).result = .ok p := by
  cases term with
  | none => exact ⟨_, rfl⟩
  | some t => exact ⟨_, s.result_compile_text t⟩

/-- **Texts of clients cause faults of clients only.** Filters given as texts, with any junctions,
are compiled or rejected by a report of one of three kinds; so is a sort, by one of two kinds; and
every search term is compiled. -/
theorem rejects_client_texts (s : Schema) (search : Search)
    (filters : List (String × ClientInput)) (junctions : List (String × String))
    (sort : Option ClientInput) (term : Option String) :
    FailsOnly (Fault.Rejects [.filterField, .filterOperator, .filterValue])
      (Filter.compile s (filters.map fun f => (f.1, f.2.value))
        (junctions.map fun j => (j.1, .text j.2))).result ∧
    FailsOnly (Fault.Rejects [.sortField, .sortDirection])
      (SortOrder.read s (sort.elim .null ClientInput.value)) ∧
    ∃ p, (search.compile (textOrNull term)).result = .ok p := by
  refine ⟨Filter.compile_rejects s filters junctions, ?_, search.exists_compiled term⟩
  apply SortOrder.read_rejects
  cases sort with
  | none => exact ⟨[], rfl⟩
  | some i => exact i.exists_sortTokens

end Listing
