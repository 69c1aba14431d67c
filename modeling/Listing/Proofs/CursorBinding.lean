import Mathlib.Data.List.Basic
import Listing.Proofs.SealedCursor
import Listing.Proofs.TracedResult
import Listing.SortOrder.Read

/-!
# Cursors and the order they were made for

The text of a sort order tells the order: an order whose field names have no comma is known by its
signature, colons and names of directions among the fields included (`SortOrder.signature_inj`).
A cursor carries that text and the name of its entity, so whoever has the key it was sealed with
resumes it for the same entity under the same order only, and says which of the two is not its own
(`Sealer.resume_bound`).
-/

set_option autoImplicit false

namespace Listing

open Text

/-! ## Signatures -/

namespace SortKey

theorem toList_text (k : SortKey) :
    k.text.toList = k.field.toList ++ ':' :: k.direction.name.toList := by
  rw [text, String.toList_append, String.toList_append, List.append_assoc]
  rfl

/-- A key is known by its text: what follows the last colon is the direction. -/
theorem text_inj {k k' : SortKey} (h : k.text = k'.text) : k = k' := by
  have hlist : k.field.toList ++ ':' :: k.direction.name.toList =
      k'.field.toList ++ ':' :: k'.direction.name.toList := by
    rw [← toList_text, ← toList_text, h]
  obtain ⟨field, direction⟩ := k
  obtain ⟨field', direction'⟩ := k'
  -- the names of the directions differ in length, so a shift of one letter is left to refute
  have hshift : ∀ cs ds : List Char, cs ++ ':' :: "ASC".toList ≠ ds ++ ':' :: "DESC".toList := by
    intro cs ds heq
    have hfour : cs ++ ':' :: "ASC".toList = (ds ++ [':']) ++ "DESC".toList := by
      rw [heq, List.append_assoc]
      rfl
    exact absurd (List.append_inj_right' hfour rfl) (by decide)
  have hdirection : direction = direction' := by
    cases direction <;> cases direction'
    · rfl
    · exact absurd hlist (hshift _ _)
    · exact absurd hlist.symm (hshift _ _)
    · rfl
  subst hdirection
  obtain rfl := String.toList_inj.1 (List.append_inj_left' hlist rfl)
  rfl

/-- A name without a comma makes a text without one. -/
theorem comma_not_mem_text {k : SortKey} (h : ',' ∉ k.field.toList) : ',' ∉ k.text.toList := by
  rw [toList_text, List.mem_append, not_or]
  refine ⟨h, ?_⟩
  cases k.direction <;> decide

end SortKey

namespace SortOrder

/-- No field name of the order has a comma in it. -/
def IsCommaFree (order : SortOrder) : Prop :=
  ∀ k ∈ order.keys, ',' ∉ k.field.toList

/-- **An order is known by its signature.** -/
theorem signature_inj {o₁ o₂ : SortOrder} (h₁ : o₁.IsCommaFree) (h₂ : o₂.IsCommaFree)
    (h : o₁.signature = o₂.signature) : o₁ = o₂ := by
  have hfree : ∀ {o : SortOrder}, o.IsCommaFree → ∀ s ∈ o.keys.map (·.text), ',' ∉ s.toList := by
    intro o ho s hs
    obtain ⟨k, hk, rfl⟩ := List.mem_map.1 hs
    exact SortKey.comma_not_mem_text (ho k hk)
  have hne : ∀ o : SortOrder, o.keys.map (·.text) ≠ [] := fun o hnil =>
    o.nonempty (List.map_eq_nil_iff.1 hnil)
  have htexts := joinWith_inj (hne o₁) (hne o₂) (hfree h₁) (hfree h₂) h
  have hkeys := List.map_injective_iff.2 (fun _ _ => SortKey.text_inj) htexts
  obtain ⟨keys, _⟩ := o₁
  obtain ⟨keys', _⟩ := o₂
  exact SortOrder.mk.injEq .. ▸ hkeys

end SortOrder

/-! ## Requested fields -/

namespace SortOrder

/-- The tokens of a requested sort have no comma in them. -/
theorem comma_not_mem_token {raw : Value} {requested : List String}
    (h : tokens raw = .ok requested) : ∀ token ∈ requested, ',' ∉ token.toList := by
  unfold tokens at h
  split at h
  · obtain rfl := Except.ok.inj h
    exact fun token htoken => absurd htoken List.not_mem_nil
  · obtain rfl := Except.ok.inj h
    exact fun token htoken => not_mem_of_mem_parts htoken
  · obtain ⟨items, -, h⟩ := Result.bind_eq_ok.1 h
    obtain ⟨texts, -, h⟩ := Result.bind_eq_ok.1 h
    obtain rfl := Except.ok.inj h
    intro token htoken
    obtain ⟨item, -, htoken⟩ := List.mem_flatMap.1 htoken
    exact not_mem_of_mem_parts htoken

/-- The field of a token has no character that the token has not. -/
theorem mem_of_readKey {s : Schema} {seen : List String} {token : String} {k : SortKey}
    (h : readKey s seen token = .ok k) : ∀ c ∈ k.field.toList, c ∈ token.toList := by
  unfold readKey at h
  split at h
  · exact absurd h (by simp [reject])
  · next direction rest hcut =>
      have hfield : k.field = trim rest := by
        simp only at h
        split at h
        · exact absurd h (by simp [reject])
        split at h
        · exact absurd h (by simp [reject])
        split at h
        · exact absurd h (by simp [reject])
        split at h
        · exact absurd h (by simp [reject])
        split at h
        · exact absurd h (by simp [reject])
        · rw [← Except.ok.inj h]
      obtain ⟨⟨front, back⟩, hpieces, heq⟩ := Option.map_eq_some_iff.1 hcut
      obtain ⟨-, rfl⟩ := Prod.mk.inj heq
      intro c hc
      rw [hfield] at hc
      have hback := mem_of_mem_trim hc
      rw [String.toList_ofList] at hback
      rw [eq_append_of_cutChars hpieces]
      exact List.mem_append_right _ (List.mem_cons_of_mem _ hback)

/-- **The fields of a requested sort have no comma in them.** -/
theorem comma_not_mem_field {s : Schema} {requested : List String} :
    ∀ {seen : List String} {keys : List SortKey}, (∀ token ∈ requested, ',' ∉ token.toList) →
      readKeys s seen requested = .ok keys → ∀ k ∈ keys, ',' ∉ k.field.toList := by
  induction requested with
  | nil =>
      intro seen keys _ h
      obtain rfl := Except.ok.inj h
      exact fun k hk => absurd hk List.not_mem_nil
  | cons token requested ih =>
      intro seen keys htokens h
      rw [List.forall_mem_cons] at htokens
      obtain ⟨key, hkey, h⟩ := Result.bind_eq_ok.1 h
      obtain ⟨rest, hrest, h⟩ := Result.bind_eq_ok.1 h
      obtain rfl := Except.ok.inj h
      rw [List.forall_mem_cons]
      exact ⟨fun hmem => htokens.1 (mem_of_readKey hkey _ hmem), ih htokens.2 hrest⟩

end SortOrder

/-! ## Fields named like keys -/

namespace Colons

/-- A number that may be sorted. -/
def field : Field :=
  ⟨.number, [], true, false, [], false⟩

/-- An entity with a field whose name ends like the text of a key. -/
def schema (entity : String) : Schema where
  entity := entity
  fields := [("id", field), ("id:ASC", field)]
  tieBreaker := "id:ASC"
  defaultSort := []

/-- A sealer of an entity that opens cursors of up to `limit` characters. -/
def sealer (entity : String) (limit : Int) : Sealer :=
  { key := encode "secret", schema := schema entity, maxLength := .int limit }

/-- The field whose name ends in a direction, in descending order. -/
def order : SortOrder :=
  ⟨[⟨"id:ASC", .descending⟩], List.cons_ne_nil _ _⟩

/-- The two fields, the shorter name first. -/
def other : SortOrder :=
  ⟨[⟨"id", .ascending⟩, ⟨"id:ASC", .descending⟩], List.cons_ne_nil _ _⟩

/-- The position after the row with the number seven. -/
def position : Position :=
  ⟨[.int 7], .after⟩

/-- The token of the position. -/
def token : String :=
  (sealer "items" 0).token ((sealer "items" 0).contents order .after [Key.tagged "i" (.int 7)])

theorem width_seven : Decimal.width (7 : Int).natAbs ≤ digitLimit := by
  rw [Decimal.width, show (7 : Int).natAbs = 7 from rfl, digits]
  decide

theorem sealPosition_position (limit : Int) :
    (sealer "items" limit).sealPosition order position = .ok token := by
  have hforms : Key.writeAll position.values = .ok [Key.tagged "i" (.int 7)] := rfl
  have hw : [Key.tagged "i" (.int 7)].all Key.isWritable = true := by
    rw [List.all_cons, List.all_nil, Bool.and_true]
    exact decide_eq_true width_seven
  have hsize : position.values.length = order.size := rfl
  rw [Sealer.sealPosition, if_pos hsize, hforms, Result.ok_bind, if_pos hw]
  rfl

theorem exceeds_token (entity : String) :
    (sealer entity token.length).exceeds token = .ok false := by
  rw [Sealer.exceeds, sealer, (Value.Alike.int _ _).compares_gt]
  exact congrArg Except.ok (decide_eq_false (lt_irrefl _))

/-- The sealer that made the token resumes it, if it is not too long. -/
theorem resume_token_own {limit : Int} (hfits : (sealer "items" limit).exceeds token = .ok false) :
    ((sealer "items" limit).resume order (.text token)).result = .ok position := by
  have hreadable : Json.ReadableItems 1 [Key.tagged "i" (.int 7)] := by
    rw [Json.ReadableItems, Json.ReadableItems]
    exact ⟨(Key.readsBack_int width_seven).readable, trivial⟩
  have hkeys : (sealer "items" limit).readKeys order.keys
      (Json.rereadItems [Key.tagged "i" (.int 7)]) = .ok position.values := rfl
  have hopen : (sealer "items" limit).openText order token = .ok position :=
    (sealer "items" limit).openText_token order .after hreadable rfl hkeys hfits
  rw [Sealer.result_resume, hopen]

end Colons

/-! ## Binding -/

namespace Sealer

/-- **A cursor is bound to its entity and its order.** The order is known by its signature; a cursor
sealed with a secret is resumed with the same secret for the same entity under the same order only;
and one that is not too long is rejected for the entity, or else for the order, where it is not the
one it was sealed for. The fields of a requested order have no comma in them. -/
theorem resume_bound {secret limit₁ limit₂ : Value} {schema₁ schema₂ : Schema} {a b : Sealer}
    (ha : ofSecret secret schema₁ limit₁ = .ok a) (hb : ofSecret secret schema₂ limit₂ = .ok b)
    {o₁ o₂ : SortOrder} (h₁ : o₁.IsCommaFree) (h₂ : o₂.IsCommaFree) :
    (o₁.signature = o₂.signature ↔ o₁ = o₂) ∧
    (∀ raw keys, (SortOrder.tokens raw >>= SortOrder.readKeys schema₁ []) = .ok keys →
      ∀ k ∈ keys, ',' ∉ k.field.toList) ∧
    ∀ p t, a.sealPosition o₁ p = .ok t →
      (∀ p', (b.resume o₂ (.text t)).result = .ok p' →
        schema₁.entity = schema₂.entity ∧ o₁ = o₂) ∧
      (b.exceeds t = .ok false →
        (schema₁.entity ≠ schema₂.entity →
          (b.resume o₂ (.text t)).result = reject (.cursor "entity mismatch")) ∧
        (schema₁.entity = schema₂.entity → o₁ ≠ o₂ →
          (b.resume o₂ (.text t)).result = reject (.cursor "sort mismatch"))) := by
  obtain ⟨hkey, rfl, -⟩ := of_ofSecret ha
  obtain ⟨hkey', rfl, -⟩ := of_ofSecret hb
  have hkey : a.key = b.key := Except.ok.inj (hkey.symm.trans hkey')
  refine ⟨⟨SortOrder.signature_inj h₁ h₂, congrArg SortOrder.signature⟩, ?_, ?_⟩
  · intro raw keys h
    obtain ⟨requested, hrequested, hkeys⟩ := Result.bind_eq_ok.1 h
    exact SortOrder.comma_not_mem_field (SortOrder.comma_not_mem_token hrequested) hkeys
  intro p t ht
  obtain ⟨forms, -, hforms, -, -, rfl⟩ := exists_contents ht
  have hreadable := a.readable_contents o₁ p.side hforms
  have hcontents := readContents_contents a b o₁ o₂ p.side forms
  refine ⟨fun p' hp' => ?_, fun hfits => ?_⟩
  -- what is resumed was not refused, for either reason
  · have hopen : b.openText o₂ (a.token (a.contents o₁ p.side forms)) = .ok p' := by
      rw [result_resume] at hp'
      split at hp'
      · next hopen => rw [hopen, Except.ok.inj hp']
      · exact absurd hp' (by simp [reject])
      · exact absurd hp' (by simp)
    rw [openText_sealed hkey o₂ hreadable (exceeds_of_openText hopen), hcontents,
      if_neg Bool.false_ne_true] at hopen
    split at hopen
    · exact absurd hopen (by simp [refuse])
    · next hentity =>
        split at hopen
        · exact absurd hopen (by simp [refuse])
        · next hsort =>
            exact ⟨not_not.1 hentity, SortOrder.signature_inj h₁ h₂ (not_not.1 hsort)⟩
  · have hopen := openText_sealed hkey o₂ hreadable hfits
    rw [hcontents, if_neg Bool.false_ne_true] at hopen
    refine ⟨fun hentity => ?_, fun hentity hsort => ?_⟩
    · rw [result_resume, hopen, if_pos hentity]
      rfl
    · have hsignature : o₁.signature ≠ o₂.signature := fun h =>
        hsort (SortOrder.signature_inj h₁ h₂ h)
      rw [result_resume, hopen, if_neg (not_not_intro hentity), if_pos hsignature]
      rfl

/-- A cursor is resumed by its own sealer under its own order, and by no other of the same secret. -/
theorem resume_bound_colons :
    Colons.order.IsCommaFree ∧ Colons.other.IsCommaFree ∧
    (∀ entity limit, ofSecret (.text "secret") (Colons.schema entity) (.int limit) =
      .ok (Colons.sealer entity limit)) ∧
    ((Colons.sealer "items" Colons.token.length).resume Colons.order (.text Colons.token)).result =
      .ok Colons.position ∧
    ((Colons.sealer "items" Colons.token.length).resume Colons.other (.text Colons.token)).result =
      reject (.cursor "sort mismatch") ∧
    ((Colons.sealer "users" Colons.token.length).resume Colons.order (.text Colons.token)).result =
      reject (.cursor "entity mismatch") := by
  have horder : Colons.order.IsCommaFree := by
    unfold SortOrder.IsCommaFree
    decide
  have hother : Colons.other.IsCommaFree := by
    unfold SortOrder.IsCommaFree
    decide
  have hsealer : ∀ entity limit, ofSecret (.text "secret") (Colons.schema entity) (.int limit) =
      .ok (Colons.sealer entity limit) := fun _ _ => rfl
  have hseal := Colons.sealPosition_position 0
  obtain ⟨-, -, hitems⟩ := resume_bound (hsealer "items" 0) (hsealer "items" Colons.token.length)
    horder hother
  obtain ⟨-, -, husers⟩ := resume_bound (hsealer "items" 0) (hsealer "users" Colons.token.length)
    horder horder
  refine ⟨horder, hother, hsealer, Colons.resume_token_own (Colons.exceeds_token "items"), ?_, ?_⟩
  · apply ((hitems _ _ hseal).2 (Colons.exceeds_token "items")).2
    · rfl
    · decide
  · apply ((husers _ _ hseal).2 (Colons.exceeds_token "users")).1
    decide

end Sealer

end Listing
