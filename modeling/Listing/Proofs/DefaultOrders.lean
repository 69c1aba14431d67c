import Listing.Proofs.ReadOrders

/-!
# Default sort orders

A schema can only be declared if each token of its default sort stands for a key of a declared field
that may be sorted (`Schema.sortContradiction?_eq_none_iff`). A request that gives no sort is answered
under these keys, ended at the tie-breaker, unless the default sort names a field twice: a declaration
does not look for that, and every such request is rejected for it (`SortOrder.read_default`).
-/

set_option autoImplicit false

namespace Listing

/-! ## What a declaration checks -/

namespace Schema

/-- The schema with another default sort. -/
def withDefault (s : Schema) (tokens : List String) : Schema :=
  { s with defaultSort := tokens }

variable {s : Schema} {token : String}

theorem sorts_eq_true_iff {name : String} :
    s.sorts name = true ↔ ∃ f, s.get? name = some f ∧ f.sortable = true := by
  rw [sorts]
  cases s.get? name with
  | none => simp
  | some f => simp

/-- **A declaration admits the tokens that stand for a key of a sortable field.** -/
theorem sortContradiction?_eq_none_iff : s.sortContradiction? token = none ↔
    ∃ k : SortKey, k.StandsIn token ∧ s.sorts k.field = true := by
  constructor
  · intro h
    rw [sortContradiction?] at h
    split at h
    · exact absurd h (Option.some_ne_none _)
    next direction rest hcut =>
    split at h
    · exact absurd h (Option.some_ne_none _)
    next hdirection =>
    split at h
    · next hsorts =>
        obtain ⟨d, hd⟩ := Option.ne_none_iff_exists'.1 (mt Option.isNone_iff_eq_none.2 hdirection)
        obtain ⟨htoken, hcolon⟩ := Text.cutAt_eq_some_iff.1 hcut
        exact ⟨⟨Text.trim rest, d⟩, ⟨direction, rest, htoken, hcolon, hd, rfl⟩, hsorts⟩
    · exact absurd h (Option.some_ne_none _)
  · rintro ⟨k, ⟨direction, rest, htoken, hcolon, hdirection, hfield⟩, hsorts⟩
    simp only [sortContradiction?, Text.cutAt_eq_some_iff.2 ⟨htoken, hcolon⟩, hdirection, hfield,
      hsorts]
    rfl

/-- The fields of a consistent schema have names. -/
theorem ne_empty_of_sorts {name : String} (h : s.contradiction? = none)
    (hsorts : s.sorts name = true) : name ≠ "" := by
  rintro rfl
  obtain ⟨f, hf, -⟩ := sorts_eq_true_iff.1 hsorts
  have hfield := fieldContradiction?_of_get? h hf
  rw [fieldContradiction?] at hfield
  exact absurd hfield (Option.some_ne_none _)

/-- A schema can be declared with every default sort whose tokens stand for keys of sortable fields. -/
theorem declare_withDefault {entity tieBreaker : String} {fields : List FieldText} {ts : List String}
    {keys : List SortKey} (h : declare entity fields tieBreaker [] = .ok s)
    (hkeys : List.Forall₂ (fun token k => k.StandsIn token) ts keys)
    (hsorts : ∀ k ∈ keys, s.sorts k.field = true) :
    declare entity fields tieBreaker ts = .ok (s.withDefault ts) := by
  obtain ⟨hentity, hfields, htie, -⟩ := contradiction?_eq_none_iff.1 (contradiction?_of_declare h)
  obtain ⟨entries, hentries, h⟩ := Result.bind_eq_ok.1 h
  obtain rfl : s = ⟨entity, Entries.ofList entries, tieBreaker, []⟩ := by
    dsimp only at h
    split at h
    · exact (Except.ok.inj h).symm
    · exact absurd h (reject_ne_ok _ _)
  have hnone : contradiction? ⟨entity, Entries.ofList entries, tieBreaker, ts⟩ = none := by
    refine contradiction?_eq_none_iff.2 ⟨hentity, hfields, htie, fun token htoken => ?_⟩
    obtain ⟨k, hk, hstands⟩ := exists_of_mem_forall₂ hkeys.flip htoken
    exact sortContradiction?_eq_none_iff.2 ⟨k, hstands, hsorts k hk⟩
  rw [declare, hentries, Result.ok_bind]
  simp only [hnone]
  rfl

end Schema

namespace SortOrder

variable {s : Schema} {raw : Value} {seen ts : List String} {token : String} {k : SortKey}
  {keys : List SortKey}

/-- A consistent schema has default keys, one for each token of its default sort. -/
theorem exists_defaultKeys (h : s.contradiction? = none) :
    ∃ keys : List SortKey, List.Forall₂ (fun token k => k.StandsIn token) s.defaultSort keys ∧
      ∀ k ∈ keys, s.sorts k.field = true := by
  have htokens : ∀ token ∈ s.defaultSort, s.sortContradiction? token = none :=
    (Schema.contradiction?_eq_none_iff.1 h).2.2.2
  generalize s.defaultSort = tokens at htokens ⊢
  induction tokens with
  | nil => exact ⟨[], .nil, fun k hk => absurd hk List.not_mem_nil⟩
  | cons token tokens ih =>
      rw [List.forall_mem_cons, Schema.sortContradiction?_eq_none_iff] at htokens
      obtain ⟨⟨k, hstands, hsorts⟩, htokens⟩ := htokens
      obtain ⟨keys, hall, hkeys⟩ := ih htokens
      exact ⟨k :: keys, .cons hstands hall, List.forall_mem_cons.2 ⟨hsorts, hkeys⟩⟩

/-! ## What reading adds -/

/-- Where a token stands for a key of a sortable field, only a repetition keeps it from being read. -/
theorem readKey_of_standsIn (h : s.contradiction? = none) (hk : k.StandsIn token)
    (hsorts : s.sorts k.field = true) : readKey s seen token =
      if k.field ∈ seen then reject (.repeatedSortField k.field) else .ok k := by
  obtain ⟨direction, rest, htoken, hcolon, hdirection, hfield⟩ := hk
  obtain ⟨f, hf, hsortable⟩ := Schema.sorts_eq_true_iff.1 hsorts
  have hne := Schema.ne_empty_of_sorts h hsorts
  simp only [readKey, Text.cutAt_eq_some_iff.2 ⟨htoken, hcolon⟩, hfield, hne, hf, hsortable,
    hdirection, List.contains_iff_mem, if_false, Bool.not_true, Bool.false_eq_true]

/-- Tokens for keys of sortable fields are read if no field is named twice. -/
theorem readKeys_of_nodup (h : s.contradiction? = none)
    (hkeys : List.Forall₂ (fun token (k : SortKey) => k.StandsIn token) ts keys)
    (hsorts : ∀ k ∈ keys, s.sorts k.field = true) (hnodup : (keys.map (·.field)).Nodup)
    (hseen : ∀ k ∈ keys, k.field ∉ seen) : readKeys s seen ts = .ok keys := by
  induction hkeys generalizing seen with
  | nil => rfl
  | @cons token k ts keys hk _ ih =>
      rw [List.forall_mem_cons] at hsorts hseen
      rw [List.map_cons, List.nodup_cons] at hnodup
      -- the fields of the other keys are not the one that has been seen now
      have hrest : ∀ k' ∈ keys, k'.field ∉ k.field :: seen := by
        intro k' hk' hmem
        rcases List.mem_cons.1 hmem with heq | hmem
        · exact hnodup.1 (heq ▸ List.mem_map_of_mem hk')
        · exact hseen.2 k' hk' hmem
      rw [readKeys, readKey_of_standsIn h hk hsorts.1, if_neg hseen.1, Result.ok_bind,
        ih hsorts.2 hnodup.2 hrest]
      rfl

/-- If a field is named twice, reading stops at one that is. -/
theorem exists_readKeys_of_not_nodup (h : s.contradiction? = none)
    (hkeys : List.Forall₂ (fun token (k : SortKey) => k.StandsIn token) ts keys)
    (hsorts : ∀ k ∈ keys, s.sorts k.field = true)
    (hagain : ¬((keys.map (·.field)).Nodup ∧ ∀ k ∈ keys, k.field ∉ seen)) :
    ∃ k ∈ keys, readKeys s seen ts = reject (.repeatedSortField k.field) := by
  induction hkeys generalizing seen with
  | nil => exact absurd ⟨List.nodup_nil, fun k hk => absurd hk List.not_mem_nil⟩ hagain
  | @cons token k ts keys hk _ ih =>
      rw [List.forall_mem_cons] at hsorts
      rw [readKeys, readKey_of_standsIn h hk hsorts.1]
      by_cases hmem : k.field ∈ seen
      · exact ⟨k, List.mem_cons_self, by rw [if_pos hmem]; rfl⟩
      -- otherwise the rest names a field again, perhaps the one that has been seen now
      · have hrest : ¬((keys.map (·.field)).Nodup ∧ ∀ k' ∈ keys, k'.field ∉ k.field :: seen) := by
          rintro ⟨hnodup, hnew⟩
          refine hagain ⟨?_, List.forall_mem_cons.2 ⟨hmem, fun k' hk' hmem' => ?_⟩⟩
          · rw [List.map_cons, List.nodup_cons]
            refine ⟨fun hfield => ?_, hnodup⟩
            obtain ⟨k', hk', heq⟩ := List.mem_map.1 hfield
            exact hnew k' hk' (heq ▸ List.mem_cons_self)
          · exact hnew k' hk' (List.mem_cons_of_mem _ hmem')
        obtain ⟨k', hk', hread⟩ := ih hsorts.2 hrest
        refine ⟨k', List.mem_cons_of_mem _ hk', ?_⟩
        rw [if_neg hmem, Result.ok_bind, hread]
        rfl

/-! ## Requests without a sort -/

/-- The request gives no sort: it has none, an empty list of them, or a text of blanks. -/
inductive Unasked : Value → Prop
  | missing : Unasked .null
  | empty : Unasked (.list [])
  | blank {t : String} (h : Text.isBlankText t = true) : Unasked (.text t)

theorem tokens_of_unasked (h : Unasked raw) : tokens raw = .ok [] := by
  cases h with
  | missing => rfl
  | empty => rfl
  | blank h => rw [tokens, Text.parts_of_isBlankText h]

/-- A request without a sort is answered under the default keys. -/
theorem read_of_unasked (hraw : Unasked raw) :
    read s raw = readKeys s [] s.defaultSort >>= fun keys => .ok (settled s.tieBreaker keys) := by
  rw [read, tokens_of_unasked hraw, Result.ok_bind, readKeys, Result.ok_bind]
  rfl

section

variable (h : s.contradiction? = none)
  (hkeys : List.Forall₂ (fun token (k : SortKey) => k.StandsIn token) s.defaultSort keys)
  (hsorts : ∀ k ∈ keys, s.sorts k.field = true)

include h hkeys hsorts

theorem read_unasked_of_nodup (hnodup : (keys.map (·.field)).Nodup) (hraw : Unasked raw) :
    read s raw = .ok (settled s.tieBreaker keys) := by
  have hread : readKeys s [] s.defaultSort = .ok keys :=
    readKeys_of_nodup h hkeys hsorts hnodup fun _ _ => List.not_mem_nil
  rw [read_of_unasked hraw, hread, Result.ok_bind]

theorem exists_read_unasked_of_not_nodup (hagain : ¬(keys.map (·.field)).Nodup) :
    ∃ k ∈ keys, ∀ raw, Unasked raw → read s raw = reject (.repeatedSortField k.field) := by
  have hstop : ¬((keys.map (·.field)).Nodup ∧ ∀ k ∈ keys, k.field ∉ ([] : List String)) :=
    fun hboth => hagain hboth.1
  obtain ⟨k, hk, hread⟩ := exists_readKeys_of_not_nodup h hkeys hsorts hstop
  refine ⟨k, hk, fun raw hraw => ?_⟩
  rw [read_of_unasked hraw, hread]
  rfl

end

/-- **A declared schema has a default order, unless its default sort names a field twice.** Each token
of the default sort stands for a key of a sortable field. If no two of these keys have one field,
every request that gives no sort is answered under them, ended at the tie-breaker. Otherwise all such
requests are rejected, for a field that is repeated. -/
theorem read_default {entity tieBreaker : String} {fields : List FieldText}
    {defaultSort : List String}
    (hs : Schema.declare entity fields tieBreaker defaultSort = .ok s) :
    ∃ keys : List SortKey, List.Forall₂ (fun token k => k.StandsIn token) s.defaultSort keys ∧
      (∀ k ∈ keys, s.sorts k.field = true) ∧
      ((keys.map (·.field)).Nodup → ∀ raw, Unasked raw →
        read s raw = .ok (settled s.tieBreaker keys)) ∧
      (¬(keys.map (·.field)).Nodup → ∃ k ∈ keys, ∀ raw, Unasked raw →
        read s raw = reject (.repeatedSortField k.field)) := by
  have hnone := Schema.contradiction?_of_declare hs
  obtain ⟨keys, hkeys, hsorts⟩ := exists_defaultKeys hnone
  exact ⟨keys, hkeys, hsorts,
    fun hnodup raw hraw => read_unasked_of_nodup hnone hkeys hsorts hnodup hraw,
    fun hagain => exists_read_unasked_of_not_nodup hnone hkeys hsorts hagain⟩

/-- A ledger is sorted by state and then by amount where nothing else is asked for. -/
theorem read_default_ledger :
    Schema.declare "entries" Ledger.fields "amount" ["asc: state", " DESC :amount"] =
      .ok (Ledger.schema.withDefault ["asc: state", " DESC :amount"]) ∧
    Unasked (.text " ") ∧
    read (Ledger.schema.withDefault ["asc: state", " DESC :amount"]) (.text " ") =
      .ok (settled "amount" [⟨"state", .ascending⟩, ⟨"amount", .descending⟩]) := by
  have hstate : SortKey.StandsIn ⟨"state", .ascending⟩ "asc: state" :=
    ⟨"asc", " state", by decide, by decide, by decide +kernel, by decide⟩
  have hamount : SortKey.StandsIn ⟨"amount", .descending⟩ " DESC :amount" :=
    ⟨" DESC ", "amount", by decide, by decide, by decide +kernel, by decide⟩
  have hstand : List.Forall₂ (fun token (k : SortKey) => k.StandsIn token)
      ["asc: state", " DESC :amount"] [⟨"state", .ascending⟩, ⟨"amount", .descending⟩] :=
    .cons hstate (.cons hamount .nil)
  have hdeclare := Schema.declare_withDefault Ledger.declare_fields hstand (by decide)
  obtain ⟨keys, hkeys, -, hread, -⟩ := read_default hdeclare
  obtain rfl := SortKey.unique_of_standIn hkeys hstand
  have hblank : Unasked (.text " ") := .blank (by decide)
  exact ⟨hdeclare, hblank, hread (by decide) _ hblank⟩

/-- **A default sort that names a field twice can be declared and is never read.** -/
theorem read_default_fails :
    Schema.declare "entries" Ledger.fields "amount" ["asc:amount", "desc:amount"] =
      .ok (Ledger.schema.withDefault ["asc:amount", "desc:amount"]) ∧
    ∀ raw, Unasked raw →
      read (Ledger.schema.withDefault ["asc:amount", "desc:amount"]) raw =
        reject (.repeatedSortField "amount") := by
  have hup : SortKey.StandsIn ⟨"amount", .ascending⟩ "asc:amount" :=
    ⟨"asc", "amount", by decide, by decide, by decide +kernel, by decide⟩
  have hdown : SortKey.StandsIn ⟨"amount", .descending⟩ "desc:amount" :=
    ⟨"desc", "amount", by decide, by decide, by decide +kernel, by decide⟩
  have hstand : List.Forall₂ (fun token (k : SortKey) => k.StandsIn token)
      ["asc:amount", "desc:amount"] [⟨"amount", .ascending⟩, ⟨"amount", .descending⟩] :=
    .cons hup (.cons hdown .nil)
  have hdeclare := Schema.declare_withDefault Ledger.declare_fields hstand (by decide)
  obtain ⟨k, hk, hread⟩ := exists_read_unasked_of_not_nodup
    (Schema.contradiction?_of_declare hdeclare) hstand (by decide) (by decide)
  refine ⟨hdeclare, ?_⟩
  rcases List.mem_pair.1 hk with rfl | rfl
  · exact hread
  · exact hread

end SortOrder

end Listing
