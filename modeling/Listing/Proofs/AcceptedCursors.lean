import Listing.Keyset
import Listing.Proofs.AdmittedFilters
import Listing.Proofs.CursorBinding
import Listing.Proofs.CursorRefusals

/-!
# What accepted cursors hold

Whatever the type tags in a payload say, a cursor is accepted only if its text is the payload with
the signature that the sealer gives it, so that a payload has one accepted cursor, and only if it
holds one value of the right kind for every key of the order (`Sealer.exists_signed_of_openText`,
`Sealer.acceptsAll_of_openText`). The keysets of such values, on either side of the position, are
predicates that the schema admits (`Keyset.validate_strictlyAfter`).
-/

set_option autoImplicit false

namespace Listing

open Text

/-! ## Admitted keysets -/

namespace Schema

variable {s : Schema}

/-- There is one value for every key, and the field of the key is declared and accepts it. -/
def AcceptsAll (s : Schema) : List SortKey → List Value → Prop :=
  List.Forall₂ fun k v => ∃ f, s.get? k.field = some f ∧ f.accepts v = true

theorem AcceptsAll.reversed {keys : List SortKey} {values : List Value}
    (h : s.AcceptsAll keys values) : s.AcceptsAll (keys.map (·.reversed)) values :=
  List.forall₂_map_left_iff.2 h

theorem validate_conjoin {ps : List Predicate} (h : ∀ p ∈ ps, s.validate p = .ok ()) :
    s.validate (.conjoin ps) = .ok () := by
  rw [← validateAll_leaves, Predicate.leaves_conjoin, validateAll_leavesOf]
  exact validateAll_of_forall h

theorem validate_disjoin {ps : List Predicate} (h : ∀ p ∈ ps, s.validate p = .ok ()) :
    s.validate (.disjoin ps) = .ok () := by
  rw [← validateAll_leaves, Predicate.leaves_disjoin, validateAll_leavesOf]
  exact validateAll_of_forall h

end Schema

namespace Keyset

variable {s : Schema}

/-- The branches after admitted equalities are admitted, since each adds comparisons with an
accepted value only. -/
theorem validate_of_mem_branches {keys : List SortKey} {values : List Value}
    (h : s.AcceptsAll keys values) : ∀ {equalities : List Predicate},
    (∀ p ∈ equalities, s.validate p = .ok ()) →
    ∀ p ∈ branches equalities keys values, s.validate p = .ok () := by
  induction h with
  | nil => exact fun _ p hp => absurd hp List.not_mem_nil
  | @cons k v keys values hkey _ ih =>
      intro equalities hequalities p hp
      obtain ⟨f, hf, haccepts⟩ := hkey
      have hvalue : s.admitValue k.field v = .ok () := Schema.admitValue_of_get? hf haccepts
      have hextend : ∀ q : Predicate, s.validate q = .ok () →
          ∀ p ∈ equalities ++ [q], s.validate p = .ok () := by
        intro q hq p hp
        rcases List.mem_append.1 hp with hp | hp
        · exact hequalities p hp
        · exact List.mem_singleton.1 hp ▸ hq
      rcases List.mem_cons.1 hp with rfl | hp
      · exact Schema.validate_conjoin (hextend (.order k.field k.beyond v) hvalue)
      · exact ih (hextend (.equal k.field v) hvalue) p hp

/-- **The keyset of accepted values is admitted.** -/
theorem validate_strictlyAfter {order : SortOrder} {values : List Value}
    (h : s.AcceptsAll order.keys values) : s.validate (strictlyAfter order values) = .ok () :=
  Schema.validate_disjoin (validate_of_mem_branches h fun _ hp => absurd hp List.not_mem_nil)

/-- **The keyset of accepted values is built and admitted.** -/
theorem exists_predicate {order : SortOrder} {values : List Value}
    (h : s.AcceptsAll order.keys values) :
    ∃ p, predicate order values = .ok p ∧ s.validate p = .ok () :=
  ⟨_, if_pos h.length_eq.symm, validate_strictlyAfter h⟩

end Keyset

/-! ## Accepted cursors -/

namespace Sealer

variable {s : Sealer} {order : SortOrder} {t : String} {here : Position}

/-- The text is a payload, a point and the signature of the payload. -/
def Signed (s : Sealer) (t : String) (payload : List Char) : Prop :=
  '.' ∉ payload ∧ t.toList = payload ++ '.' :: s.sign payload

/-- A signed text is known by its payload. -/
theorem Signed.unique {t' : String} {payload : List Char} (h : s.Signed t payload)
    (h' : s.Signed t' payload) : t = t' :=
  String.toList_inj.1 (h.2.trans h'.2.symm)

theorem of_splitToken {cs payload signature : List Char}
    (h : splitToken cs = .ok (payload, signature)) :
    '.' ∉ payload ∧ cs = payload ++ '.' :: signature := by
  unfold splitToken at h
  cases hcut : cutChars '.' cs with
  | none => simp [hcut, refuse] at h
  | some parts =>
      rw [hcut] at h
      dsimp only at h
      split at h
      · obtain ⟨rfl, rfl⟩ := Prod.mk.inj (Except.ok.inj h)
        exact ⟨not_mem_of_cutChars hcut, eq_append_of_cutChars hcut⟩
      · exact absurd h (by simp [refuse])

/-- **An accepted cursor is signed**, and the position is read from its payload. -/
theorem exists_signed_of_openText (h : s.openText order t = .ok here) :
    ∃ payload body, s.Signed t payload ∧ s.readPayload payload = .ok body ∧
      s.readContents order body = .ok here := by
  rw [openText] at h
  split at h
  · exact absurd h (by simp [refuse])
  obtain ⟨tooLong, -, h⟩ := Result.bind_eq_ok.1 h
  split at h
  · exact absurd h (by simp [refuse])
  obtain ⟨⟨payload, signature⟩, hsplit, h⟩ := Result.bind_eq_ok.1 h
  obtain ⟨hpoint, ht⟩ := of_splitToken hsplit
  dsimp only at h
  split at h
  · next hsign =>
      obtain ⟨body, hbody, h⟩ := Result.bind_eq_ok.1 h
      exact ⟨payload, body, ⟨hpoint, hsign ▸ ht⟩, hbody, h⟩
  · exact absurd h (by simp [refuse])

theorem exists_accepts_of_readKey {field : String} {item : Json} {v : Value}
    (h : s.readKey field item = .ok v) :
    ∃ f, s.schema.get? field = some f ∧ f.accepts v = true := by
  unfold readKey at h
  split at h
  · exact absurd h (by simp [refuse])
  · exact absurd h (by simp)
  · split at h
    · next f hf =>
        split at h
        · next haccepts =>
            obtain rfl := Except.ok.inj h
            exact ⟨f, hf, haccepts⟩
        · exact absurd h (by simp [refuse])
    · exact absurd h (by simp [refuse])

theorem acceptsAll_of_readKeys : ∀ {keys : List SortKey} {items : List Json} {values : List Value},
    items.length = keys.length → s.readKeys keys items = .ok values →
    s.schema.AcceptsAll keys values := by
  intro keys
  induction keys with
  | nil =>
      intro items values _ h
      obtain rfl := Except.ok.inj h
      exact .nil
  | cons k keys ih =>
      intro items values hlength h
      cases items with
      | nil => exact absurd hlength (by simp)
      | cons item items =>
          rw [readKeys] at h
          obtain ⟨v, hkey, h⟩ := Result.bind_eq_ok.1 h
          obtain ⟨others, hrest, h⟩ := Result.bind_eq_ok.1 h
          obtain rfl := Except.ok.inj h
          exact .cons (exists_accepts_of_readKey hkey) (ih (Nat.succ.inj hlength) hrest)

/-- **An accepted cursor holds an accepted value for every key.** -/
theorem acceptsAll_of_openText (h : s.openText order t = .ok here) :
    s.schema.AcceptsAll order.keys here.values := by
  obtain ⟨payload, body, -, -, hcontents⟩ := exists_signed_of_openText h
  rcases s.readContents_cases order body with ⟨f, hf⟩ | ⟨fields, side, items, rfl, hown⟩
  · exact absurd (hf.symm.trans hcontents) (by simp [refuse])
  rw [hown.readContents_eq] at hcontents
  cases hkeys : s.readKeys order.keys items with
  | error e => simp [hkeys, Except.map] at hcontents
  | ok values =>
      rw [hkeys] at hcontents
      obtain rfl := Except.ok.inj hcontents
      exact acceptsAll_of_readKeys hown.count hkeys

/-- What is resumed was opened. -/
theorem openText_of_resume (h : (s.resume order (.text t)).result = .ok here) :
    s.openText order t = .ok here := by
  rw [result_resume] at h
  split at h
  · next hopen => rw [hopen, Except.ok.inj h]
  · exact absurd h (by simp [reject])
  · exact absurd h (by simp)

/-- **What is accepted is signed and typed.** The text of an accepted cursor is its payload, a point
and the signature that the sealer gives the payload, and no other text with this payload is accepted
under any order. It holds one value for every key of the order, whose field is declared and accepts
it; and the keysets of these values, under the order and under the reversed one, are built and
admitted by the schema. -/
theorem resume_accepts (h : (s.resume order (.text t)).result = .ok here) :
    (∃ payload, s.Signed t payload ∧
      ∀ order' t' here', (s.resume order' (.text t')).result = .ok here' →
        payload ++ ['.'] <+: t'.toList → t' = t) ∧
    s.schema.AcceptsAll order.keys here.values ∧
    (∃ p, Keyset.predicate order here.values = .ok p ∧ s.schema.validate p = .ok ()) ∧
    ∃ p, Keyset.predicate order.reversed here.values = .ok p ∧ s.schema.validate p = .ok () := by
  have hopen := openText_of_resume h
  have haccepts := acceptsAll_of_openText hopen
  obtain ⟨payload, -, hsigned, -, -⟩ := exists_signed_of_openText hopen
  refine ⟨⟨payload, hsigned, ?_⟩, haccepts, Keyset.exists_predicate haccepts,
    Keyset.exists_predicate haccepts.reversed⟩
  intro order' t' here' h' hprefix
  obtain ⟨payload', -, hsigned', -, -⟩ := exists_signed_of_openText (openText_of_resume h')
  -- both payloads end at the first point of the text
  obtain ⟨rest, hrest⟩ := hprefix
  have hcut : some (payload, rest) = some (payload', s.sign payload') := by
    rw [← cutChars_append hsigned.1 rest, ← cutChars_append hsigned'.1, ← hsigned'.2, ← hrest,
      List.append_assoc, List.singleton_append]
  obtain ⟨rfl, -⟩ := Prod.mk.inj (Option.some.inj hcut)
  exact hsigned'.unique hsigned

/-- The cursor behind the row with the number seven is signed, and its keysets are admitted. -/
theorem resume_accepts_colons :
    ((Colons.sealer "items" Colons.token.length).resume Colons.order (.text Colons.token)).result =
      .ok Colons.position ∧
    (∃ payload, (Colons.sealer "items" Colons.token.length).Signed Colons.token payload) ∧
    (Colons.schema "items").AcceptsAll Colons.order.keys [.int 7] ∧
    (Colons.schema "items").validate (.order "id:ASC" .lt (.int 7)) = .ok () ∧
    (Colons.schema "items").validate (.order "id:ASC" .gt (.int 7)) = .ok () := by
  have hresume := Colons.resume_token_own (Colons.exceeds_token "items")
  obtain ⟨⟨payload, hsigned, -⟩, haccepts, ⟨p, hp, hvalid⟩, q, hq, hvalid'⟩ :=
    resume_accepts hresume
  obtain rfl := Except.ok.inj hp
  obtain rfl := Except.ok.inj hq
  exact ⟨hresume, ⟨payload, hsigned⟩, haccepts, hvalid, hvalid'⟩

end Sealer

end Listing
