import Listing.Proofs.AdmittedFilters
import Listing.SortOrder.Read

/-!
# Sort orders that are read

A requested sort asks for keys, one for each of its tokens, or for those of the default sort if it
has no token (`SortOrder.Requests`). The order that is read has these keys as they were asked for, up
to the tie-breaker; where they do not have it, it follows in the direction of the last of them. So it
ends with the tie-breaker, has no field twice, and has declared fields only that may be sorted and are
never null (`SortOrder.read_shape`).
-/

set_option autoImplicit false

namespace Listing

/-- The token is the name of a direction, a colon and the field of the key, which may have blanks
around it. -/
def SortKey.StandsIn (k : SortKey) (token : String) : Prop :=
  ∃ direction rest, token.toList = direction.toList ++ ':' :: rest.toList ∧
    ':' ∉ direction.toList ∧ Direction.read? direction = some k.direction ∧ Text.trim rest = k.field

/-- A token stands for one key: it is cut at its first colon. -/
theorem SortKey.StandsIn.unique {k k' : SortKey} {token : String} (h : k.StandsIn token)
    (h' : k'.StandsIn token) : k = k' := by
  obtain ⟨direction, rest, htoken, hcolon, hread, hfield⟩ := h
  obtain ⟨direction', rest', htoken', hcolon', hread', hfield'⟩ := h'
  have hcut := Text.cutAt_eq_some_iff.2 ⟨htoken, hcolon⟩
  have hcut' := Text.cutAt_eq_some_iff.2 ⟨htoken', hcolon'⟩
  obtain ⟨rfl, rfl⟩ := Prod.mk.inj (Option.some.inj (hcut.symm.trans hcut'))
  have hdirection : k.direction = k'.direction := Option.some.inj (hread.symm.trans hread')
  have hfields : k.field = k'.field := hfield.symm.trans hfield'
  cases k
  cases k'
  exact congrArg₂ SortKey.mk hfields hdirection

/-- Tokens stand for one list of keys. -/
theorem SortKey.unique_of_standIn {tokens : List String} {keys keys' : List SortKey}
    (h : List.Forall₂ (fun token (k : SortKey) => k.StandsIn token) tokens keys)
    (h' : List.Forall₂ (fun token (k : SortKey) => k.StandsIn token) tokens keys') : keys = keys' := by
  have hunique : Relator.RightUnique fun token (k : SortKey) => k.StandsIn token :=
    fun _ _ _ => SortKey.StandsIn.unique
  exact List.right_unique_forall₂' hunique h h'

/-! ## Fields of a consistent schema -/

namespace Schema

variable {s : Schema} {name : String}

/-- A consistent schema has no sortable field that may be null. -/
theorem exists_get?_of_sorts (h : s.contradiction? = none) (hsorts : s.sorts name = true) :
    ∃ f, s.get? name = some f ∧ f.sortable = true ∧ f.nullable = false := by
  unfold sorts at hsorts
  split at hsorts
  · next f hf =>
      refine ⟨f, hf, hsorts, Bool.eq_false_iff.2 fun hnullable => ?_⟩
      have hfield := fieldContradiction?_of_get? h hf
      unfold fieldContradiction? at hfield
      simp only [hsorts, hnullable, and_self, if_true] at hfield
      repeat' split at hfield
      all_goals exact absurd hfield (Option.some_ne_none _)
  · exact absurd hsorts Bool.false_ne_true

/-- The tie-breaker of a consistent schema may be sorted. -/
theorem sorts_tieBreaker (h : s.contradiction? = none) : s.sorts s.tieBreaker = true :=
  (contradiction?_eq_none_iff.1 h).2.2.1

end Schema

namespace SortOrder

/-- The keys that a requested sort asks for in turn: those of its tokens, or those of the default
sort if it has none. -/
def Requests (s : Schema) (raw : Value) (keys : List SortKey) : Prop :=
  ∃ ts, tokens raw = .ok ts ∧
    List.Forall₂ (fun token k => k.StandsIn token) (if ts = [] then s.defaultSort else ts) keys

variable {s : Schema} {raw : Value} {seen ts : List String} {token tie : String}
  {k : SortKey} {keys before after : List SortKey} {last : Direction} {order : SortOrder}

/-- **A requested sort asks for one list of keys.** -/
theorem Requests.unique {keys' : List SortKey} (h : Requests s raw keys)
    (h' : Requests s raw keys') : keys = keys' := by
  obtain ⟨ts, hts, hkeys⟩ := h
  obtain ⟨ts', hts', hkeys'⟩ := h'
  obtain rfl := Except.ok.inj (hts.symm.trans hts')
  exact SortKey.unique_of_standIn hkeys hkeys'

/-! ## Reading keys -/

/-- The key read from a token stands in it, and its field may be sorted and is a new one. -/
theorem standsIn_of_readKey (h : readKey s seen token = .ok k) :
    k.StandsIn token ∧ k.field ∉ seen ∧ s.sorts k.field = true := by
  unfold readKey at h
  split at h
  · exact absurd h (reject_ne_ok _ _)
  · next direction rest hcut =>
      dsimp only at h
      split at h
      · exact absurd h (reject_ne_ok _ _)
      split at h
      · exact absurd h (reject_ne_ok _ _)
      next f hf =>
      split at h
      · exact absurd h (reject_ne_ok _ _)
      next hsortable =>
      split at h
      · exact absurd h (reject_ne_ok _ _)
      next d hd =>
      split at h
      · exact absurd h (reject_ne_ok _ _)
      next hseen =>
      obtain rfl := Except.ok.inj h
      obtain ⟨htoken, hcolon⟩ := Text.cutAt_eq_some_iff.1 hcut
      refine ⟨⟨direction, rest, htoken, hcolon, hd, rfl⟩, ?_, ?_⟩
      · exact fun hmem => hseen (List.contains_iff_mem.2 hmem)
      · simpa only [Schema.sorts, hf, Bool.not_eq_true', Bool.not_eq_false] using hsortable

/-- **The keys read from tokens** stand in them in order, their fields may be sorted, and no field is
read twice. -/
theorem standIn_of_readKeys (h : readKeys s seen ts = .ok keys) :
    List.Forall₂ (fun token k => k.StandsIn token) ts keys ∧ (keys.map (·.field)).Nodup ∧
      ∀ k ∈ keys, k.field ∉ seen ∧ s.sorts k.field = true := by
  induction ts generalizing seen keys with
  | nil =>
      obtain rfl := Except.ok.inj h
      exact ⟨.nil, List.nodup_nil, fun k hk => absurd hk List.not_mem_nil⟩
  | cons token ts ih =>
      obtain ⟨k, hk, h⟩ := Result.bind_eq_ok.1 h
      obtain ⟨rest, hrest, h⟩ := Result.bind_eq_ok.1 h
      obtain rfl := Except.ok.inj h
      obtain ⟨hstands, hseen, hsorts⟩ := standsIn_of_readKey hk
      obtain ⟨hall, hnodup, hnew⟩ := ih hrest
      refine ⟨.cons hstands hall, ?_, ?_⟩
      -- the field of the first key has been seen where the others are read
      · rw [List.map_cons, List.nodup_cons]
        refine ⟨fun hmem => ?_, hnodup⟩
        obtain ⟨k', hk', hfield⟩ := List.mem_map.1 hmem
        exact (hnew k' hk').1 (hfield ▸ List.mem_cons_self)
      · rw [List.forall_mem_cons]
        refine ⟨⟨hseen, hsorts⟩, fun k' hk' => ⟨fun hmem => ?_, (hnew k' hk').2⟩⟩
        exact (hnew k' hk').1 (List.mem_cons_of_mem _ hmem)

/-- The order that is read ends the requested keys at the tie-breaker. -/
theorem exists_requests (h : read s raw = .ok order) : ∃ keys, Requests s raw keys ∧
    (keys.map (·.field)).Nodup ∧ (∀ k ∈ keys, s.sorts k.field = true) ∧
    order = settled s.tieBreaker keys := by
  obtain ⟨ts, hts, h⟩ := Result.bind_eq_ok.1 h
  obtain ⟨requested, hrequested, h⟩ := Result.bind_eq_ok.1 h
  obtain ⟨keys, hread, rfl⟩ : ∃ keys, readKeys s [] (if ts = [] then s.defaultSort else ts) =
      .ok keys ∧ order = settled s.tieBreaker keys := by
    have hempty : requested = [] ↔ ts = [] := by
      rw [← List.length_eq_zero_iff, ← (standIn_of_readKeys hrequested).1.length_eq,
        List.length_eq_zero_iff]
    dsimp only at h
    split at h
    · next hnil =>
        obtain ⟨keys, hkeys, h⟩ := Result.bind_eq_ok.1 h
        rw [if_pos (hempty.1 (List.isEmpty_iff.1 hnil))]
        exact ⟨keys, hkeys, (Except.ok.inj h).symm⟩
    · next hne =>
        rw [if_neg fun hnil => hne (List.isEmpty_iff.2 (hempty.2 hnil))]
        exact ⟨requested, hrequested, (Except.ok.inj h).symm⟩
  obtain ⟨hstand, hnodup, hsorts⟩ := standIn_of_readKeys hread
  exact ⟨keys, ⟨ts, hts, hstand⟩, hnodup, fun k hk => (hsorts k hk).2, rfl⟩

/-! ## Ending at the tie-breaker -/

theorem settle_of_mem (hk : k.field = tie) (hbefore : tie ∉ before.map (·.field)) :
    settle tie last (before ++ k :: after) = before ++ [k] := by
  induction before generalizing last with
  | nil => rw [List.nil_append, settle, if_pos hk, List.nil_append]
  | cons first before ih =>
      rw [List.map_cons, List.mem_cons, not_or] at hbefore
      rw [List.cons_append, settle, if_neg (Ne.symm hbefore.1), ih hbefore.2, List.cons_append]

theorem settle_of_not_mem (h : tie ∉ keys.map (·.field)) :
    settle tie last keys = keys ++ [⟨tie, (keys.getLast?.map (·.direction)).getD last⟩] := by
  induction keys generalizing last with
  | nil => rfl
  | cons k keys ih =>
      rw [List.map_cons, List.mem_cons, not_or] at h
      rw [settle, if_neg (Ne.symm h.1), ih h.2, List.cons_append]
      cases keys with
      | nil => rfl
      | cons next keys => rw [List.getLast?_cons_cons, List.getLast?_cons]; rfl

/-- Among keys whose fields differ the tie-breaker stands at one place, if it is there. -/
theorem exists_append_of_mem (hnodup : (keys.map (·.field)).Nodup) (h : tie ∈ keys.map (·.field)) :
    ∃ before k after, keys = before ++ k :: after ∧ k.field = tie ∧
      tie ∉ before.map (·.field) := by
  obtain ⟨k, hk, rfl⟩ := List.mem_map.1 h
  obtain ⟨before, after, rfl⟩ := List.append_of_mem hk
  refine ⟨before, k, after, rfl, rfl, ?_⟩
  rw [List.map_append, List.map_cons] at hnodup
  exact fun hmem => (List.nodup_append.1 hnodup).2.2 _ hmem _ List.mem_cons_self rfl

/-- **Keys end at the tie-breaker**: they are cut after it if it is among them, and otherwise it is
put behind them in the direction of the last one. -/
def EndsAt (tie : String) (keys ended : List SortKey) : Prop :=
  (∃ before k after, keys = before ++ k :: after ∧ k.field = tie ∧ ended = before ++ [k]) ∨
    tie ∉ keys.map (·.field) ∧
      ended = keys ++ [⟨tie, (keys.getLast?.map (·.direction)).getD .descending⟩]

theorem endsAt_settle (hnodup : (keys.map (·.field)).Nodup) :
    EndsAt tie keys (settle tie .descending keys) := by
  by_cases h : tie ∈ keys.map (·.field)
  · obtain ⟨before, k, after, rfl, hk, hbefore⟩ := exists_append_of_mem hnodup h
    exact .inl ⟨before, k, after, rfl, hk, settle_of_mem hk hbefore⟩
  · exact .inr ⟨h, settle_of_not_mem h⟩

section EndsAt

variable {ended : List SortKey} (h : EndsAt tie keys ended)

include h

/-- What ends at the tie-breaker has one key for it, the last one. -/
theorem EndsAt.exists_last : ∃ front k, ended = front ++ [k] ∧ k.field = tie := by
  rcases h with ⟨before, k, after, -, hk, rfl⟩ | ⟨-, rfl⟩
  · exact ⟨before, k, rfl, hk⟩
  · exact ⟨keys, _, rfl, rfl⟩

theorem EndsAt.nodup (hnodup : (keys.map (·.field)).Nodup) : (ended.map (·.field)).Nodup := by
  rcases h with ⟨before, k, after, rfl, -, rfl⟩ | ⟨htie, rfl⟩
  · rw [List.append_cons, List.map_append] at hnodup
    exact (List.nodup_append.1 hnodup).1
  · rw [List.map_append, List.map_singleton, List.nodup_append]
    refine ⟨hnodup, List.nodup_singleton _, fun name hname name' hname' => ?_⟩
    rw [List.mem_singleton.1 hname']
    rintro rfl
    exact htie hname

theorem EndsAt.mem {k : SortKey} (hk : k ∈ ended) : k ∈ keys ∨ k.field = tie := by
  rcases h with ⟨before, k', after, rfl, -, rfl⟩ | ⟨-, rfl⟩
  · rw [List.append_cons]
    exact .inl (List.mem_append_left _ hk)
  · rcases List.mem_append.1 hk with hk | hk
    · exact .inl hk
    · exact .inr (by rw [List.mem_singleton.1 hk])

end EndsAt

/-- **The shape of an order that is read.** It ends with the tie-breaker of the schema and has no
field twice, so it has the tie-breaker once. All its fields are declared, may be sorted and are never
null. Its keys are those that the request asks for, in that order and with those directions, cut after
the tie-breaker or followed by it. -/
theorem read_shape {entity tieBreaker : String} {fields : List FieldText}
    {defaultSort : List String}
    (hs : Schema.declare entity fields tieBreaker defaultSort = .ok s)
    (h : read s raw = .ok order) :
    order.tieBreaker.field = s.tieBreaker ∧ order.fields.count s.tieBreaker = 1 ∧
      order.fields.Nodup ∧
      (∀ k ∈ order.keys, ∃ f, s.get? k.field = some f ∧ f.sortable = true ∧ f.nullable = false) ∧
      ∃ keys, Requests s raw keys ∧ EndsAt s.tieBreaker keys order.keys := by
  have hnone := Schema.contradiction?_of_declare hs
  obtain ⟨keys, hkeys, hnodup, hsorts, rfl⟩ := exists_requests h
  have hends : EndsAt s.tieBreaker keys (settled s.tieBreaker keys).keys := endsAt_settle hnodup
  obtain ⟨front, k, hfront, hk⟩ := hends.exists_last
  refine ⟨?_, ?_, hends.nodup hnodup, ?_, keys, hkeys, hends⟩
  · simp only [SortOrder.tieBreaker, hfront, List.getLast_concat, hk]
  · apply List.count_eq_one_of_mem (hends.nodup hnodup)
    refine List.mem_map.2 ⟨k, ?_, hk⟩
    rw [hfront]
    exact List.mem_concat_self
  · intro k hk
    apply Schema.exists_get?_of_sorts hnone
    rcases hends.mem hk with hmem | hfield
    · exact hsorts k hmem
    · rw [hfield]
      exact Schema.sorts_tieBreaker hnone

/-- A ledger sorted by amount is not sorted by state as well. -/
theorem read_shape_ledger :
    Schema.declare "entries" Ledger.fields "amount" [] = .ok Ledger.schema ∧
    read Ledger.schema (.text "desc:amount, asc:state") =
      .ok (settled "amount" [⟨"amount", .descending⟩]) ∧
    (settled "amount" [⟨"amount", .descending⟩]).fields.Nodup ∧
    ∃ keys, Requests Ledger.schema (.text "desc:amount, asc:state") keys ∧
      EndsAt "amount" keys [⟨"amount", .descending⟩] := by
  have hread : read Ledger.schema (.text "desc:amount, asc:state") =
      .ok (settled "amount" [⟨"amount", .descending⟩]) := by
    cbv
  obtain ⟨-, -, hnodup, -, hkeys⟩ := read_shape Ledger.declare_fields hread
  exact ⟨Ledger.declare_fields, hread, hnodup, hkeys⟩

end SortOrder

end Listing
