import Listing.Proofs.CutTexts
import Listing.Proofs.LiteralPatterns
import Listing.Proofs.NormalForm
import Listing.Proofs.TracedResult
import Listing.Proofs.WritableTexts
import Listing.Search

/-!
# What a search finds

A row is hit by a term if one of the fields searched holds a value whose text contains the trimmed
term, without regard to case and with nothing in the term standing for anything else
(`Search.IsHit`). The fields are looked at in turn up to the first hit, and a value that cannot be
written stops the search there (`Search.Reads`). Apart from that a search through at least one field
finds exactly the rows that are hit; a search through none is the neutral disjunction and finds every
row (`Search.finds_hits_iff`).
-/

set_option autoImplicit false

namespace Listing

/-! ## Hits -/

/-- The value is not null, and its text has a piece with the letters of the trimmed term, one by one
and without regard to case. -/
def Value.IsHit (v : Value) (t : String) : Prop :=
  v ≠ .null ∧ ∃ shown, v.displayed = .ok shown ∧ ∃ piece, piece <:+: shown.toList ∧
    List.Forall₂ Text.SameLetter (Text.trim t).toList piece

namespace Search

variable {search : Search} {fields : List String} {t : String} {row : Value}

/-- One of the fields searched holds a hit of the term. -/
def IsHit (search : Search) (t : String) (row : Value) : Prop :=
  ∃ f ∈ search.fields, (row.fieldOrNull f).IsHit t

/-- A value that cannot be written stands in no field but one after a hit, where it is not looked
at. -/
def Reads (fields : List String) (t : String) (row : Value) : Prop :=
  ∀ before f after, fields = before ++ f :: after → (row.fieldOrNull f).isShowable = false →
    ∃ g ∈ before, (row.fieldOrNull g).IsHit t

theorem reads_nil : Reads [] t row :=
  fun before _ _ h => absurd h (by simp)

theorem reads_cons_iff {f : String} : Reads (f :: fields) t row ↔
    (row.fieldOrNull f).isShowable = true ∧ ((row.fieldOrNull f).IsHit t ∨ Reads fields t row) := by
  constructor
  · intro h
    have hshown : (row.fieldOrNull f).isShowable = true := by
      rw [← Bool.not_eq_false]
      intro hlong
      obtain ⟨g, hg, -⟩ := h [] f fields rfl hlong
      exact absurd hg List.not_mem_nil
    refine ⟨hshown, or_iff_not_imp_left.2 fun hmiss before g after hsplit hlong => ?_⟩
    have hcons : f :: fields = (f :: before) ++ g :: after := congrArg (List.cons f) hsplit
    obtain ⟨g', hg', hhit⟩ := h (f :: before) g after hcons hlong
    rcases List.mem_cons.1 hg' with rfl | hg'
    · exact absurd hhit hmiss
    · exact ⟨g', hg', hhit⟩
  · rintro ⟨hshown, h⟩ before g after hsplit hlong
    cases before with
    | nil =>
        obtain ⟨rfl, -⟩ := List.cons.inj hsplit
        exact absurd (hshown.symm.trans hlong) (by simp)
    | cons first before =>
        obtain ⟨rfl, htail⟩ := List.cons.inj hsplit
        rcases h with hhit | h
        · exact ⟨f, List.mem_cons_self, hhit⟩
        · obtain ⟨g', hg', hhit⟩ := h before g after htail hlong
          exact ⟨g', List.mem_cons_of_mem f hg', hhit⟩

/-- The search for a term is compiled, and its predicate is decided on the row. -/
def Finds (search : Search) (term row : Value) (found : Bool) : Prop :=
  ∃ p, (search.compile term).result = .ok p ∧ p.holds row = .ok found

theorem finds_null : search.Finds .null row true :=
  ⟨.always, rfl, by rw [Predicate.holds]⟩

/-! ### The predicate of a term -/

/-- A search writes the pattern of its term only. -/
theorem isWritable_hits (search : Search) (t : String) : (search.hits t).isWritable = true := by
  rw [hits, Predicate.isWritable_disjoin, Predicate.areWritable_iff]
  intro p hp
  obtain ⟨f, -, rfl⟩ := List.mem_map.1 hp
  rfl

/-- **A term is always compiled**, to the neutral predicate if it is blank. -/
theorem result_compile_text (search : Search) (t : String) :
    (search.compile (.text t)).result =
      .ok (if Text.trim t = "" then .always else search.hits t) := by
  rw [compile]
  split
  · next hblank =>
      rw [if_pos (Text.isBlankText_iff.1 hblank)]
      rfl
  · next hblank =>
      rw [if_neg fun h => hblank (Text.isBlankText_iff.2 h), Traced.result_bind,
        Traced.result_liftM, Predicate.written_of_isWritable (search.isWritable_hits t)]
      rfl

theorem finds_text_iff {found : Bool} (h : Text.trim t ≠ "") :
    search.Finds (.text t) row found ↔ (search.hits t).holds row = .ok found := by
  rw [Finds, result_compile_text, if_neg h]
  constructor
  · rintro ⟨p, hp, hfound⟩
    rwa [Except.ok.inj hp]
  · exact fun hfound => ⟨_, rfl, hfound⟩

theorem finds_blank_iff {found : Bool} (h : Text.trim t = "") :
    search.Finds (.text t) row found ↔ found = true := by
  rw [Finds, result_compile_text, if_pos h]
  constructor
  · rintro ⟨p, hp, hfound⟩
    obtain rfl := Except.ok.inj hp
    rw [Predicate.holds] at hfound
    exact (Except.ok.inj hfound).symm
  · rintro rfl
    exact ⟨_, rfl, by rw [Predicate.holds]⟩

theorem hits_of_fields_eq_nil (h : search.fields = []) : search.hits t = .always := by
  rw [hits, h]
  rfl

/-- The predicate of a term in one field. -/
def leaf (t f : String) : Predicate :=
  .like f (.text (Wildcard.containing (Text.trim t))) true

theorem normal_leaf (t f : String) : (leaf t f).normal = leaf t f :=
  Predicate.normal_of_isNormal _ (by simp [leaf, Predicate.IsNormal])

/-- What cannot be written is compared with no pattern. -/
theorem holds_leaf_eq_error_iff {f : String} {e : Fault} : (leaf t f).holds row = .error e ↔
    (row.fieldOrNull f).isShowable = false ∧ e = .longInteger := by
  rw [leaf, Predicate.holds]
  exact Predicate.describes_text_eq_error_iff

/-- A leaf holds of the hits in its field. -/
theorem holds_leaf_iff {f : String} :
    (leaf t f).holds row = .ok true ↔ (row.fieldOrNull f).IsHit t := by
  have hpiece := Wildcard.matchesAll_containing_iff
    (fun _ _ => Wildcard.sameLetter_true_iff) (Text.trim t)
  rw [leaf, Predicate.holds, Value.IsHit]
  by_cases hnull : row.fieldOrNull f = .null
  · rw [hnull]
    exact iff_of_false nofun fun h => h.1 rfl
  · rw [Predicate.describes_text hnull, Result.map_eq_ok, and_iff_right hnull]
    exact exists_congr fun shown => and_congr_right fun _ => hpiece shown

/-- No leaf is neutral, so the disjunction over some fields is asked leaf by leaf. -/
theorem holds_hits (hne : search.fields ≠ []) (t : String) (row : Value) :
    (search.hits t).holds row = Predicate.holdsAny (search.fields.map (leaf t)) row := by
  change (Predicate.disjoin (search.fields.map (leaf t))).holds row = _
  rw [Predicate.holds_disjoin, List.map_map]
  · exact congrArg (Predicate.holdsAny · row) (List.map_congr_left fun f _ => normal_leaf t f)
  · exact fun hnil => hne (List.map_eq_nil_iff.1 hnil)
  · intro p hp
    obtain ⟨f, -, rfl⟩ := List.mem_map.1 hp
    rw [normal_leaf]
    rfl

/-! ### The rows that are found -/

/-- What one field says: it cannot be read, it holds a hit, or it holds none. -/
theorem leaf_cases (t f : String) (row : Value) :
    ((row.fieldOrNull f).isShowable = false ∧ (leaf t f).holds row = .error .longInteger) ∨
    ((row.fieldOrNull f).isShowable = true ∧ (row.fieldOrNull f).IsHit t ∧
      (leaf t f).holds row = .ok true) ∨
    ((row.fieldOrNull f).isShowable = true ∧ ¬(row.fieldOrNull f).IsHit t ∧
      (leaf t f).holds row = .ok false) := by
  cases hshown : (row.fieldOrNull f).isShowable with
  | false => exact .inl ⟨rfl, holds_leaf_eq_error_iff.2 ⟨hshown, rfl⟩⟩
  | true =>
      refine .inr ?_
      cases h : (leaf t f).holds row with
      | error e => exact absurd (hshown.symm.trans (holds_leaf_eq_error_iff.1 h).1) nofun
      | ok b =>
          cases b with
          | true => exact .inl ⟨rfl, holds_leaf_iff.1 h, rfl⟩
          | false =>
              refine .inr ⟨rfl, fun hhit => ?_, rfl⟩
              exact absurd ((holds_leaf_iff.2 hhit).symm.trans h) nofun

/-- **Fields are asked in turn**, up to the first hit or the first value that cannot be written. -/
theorem holdsAny_leaves (fields : List String) (t : String) (row : Value) :
    (Reads fields t row ∧ ∃ b, Predicate.holdsAny (fields.map (leaf t)) row = .ok b ∧
      (b = true ↔ ∃ f ∈ fields, (row.fieldOrNull f).IsHit t)) ∨
    (¬Reads fields t row ∧
      Predicate.holdsAny (fields.map (leaf t)) row = .error .longInteger) := by
  induction fields with
  | nil => exact .inl ⟨reads_nil, false, rfl, by simp⟩
  | cons f fields ih =>
      rw [List.map_cons, Predicate.holdsAny, reads_cons_iff]
      rcases leaf_cases t f row with ⟨hlong, h⟩ | ⟨hshown, hhit, h⟩ | ⟨hshown, hmiss, h⟩
      · exact .inr ⟨fun hreads => absurd (hlong.symm.trans hreads.1) nofun, by rw [h]; rfl⟩
      · exact .inl ⟨⟨hshown, .inl hhit⟩, true, by rw [h]; rfl,
          iff_of_true rfl ⟨f, List.mem_cons_self, hhit⟩⟩
      · -- the field says nothing, so the others decide
        rw [h, Result.ok_bind, and_iff_right hshown, or_iff_right hmiss]
        simp only [List.exists_mem_cons_iff, hmiss, false_or]
        exact ih

/-- The predicate of a term holds of every row if no field is searched, and otherwise of the hits, unless
a value on the way cannot be written. -/
theorem finds_cases (search : Search) (t : String) (row : Value) :
    (Reads search.fields t row ∧ ∃ found, (search.hits t).holds row = .ok found ∧
      (found = true ↔ search.fields = [] ∨ search.IsHit t row)) ∨
    (¬Reads search.fields t row ∧ search.fields ≠ [] ∧
      (search.hits t).holds row = .error .longInteger) := by
  by_cases hfields : search.fields = []
  · refine .inl ⟨hfields ▸ reads_nil, true, ?_, by simp [hfields]⟩
    rw [hits_of_fields_eq_nil hfields, Predicate.holds]
  · rw [holds_hits hfields, or_iff_right hfields]
    rcases holdsAny_leaves search.fields t row with hdecided | ⟨hlong, hfails⟩
    · exact .inl hdecided
    · exact .inr ⟨hlong, hfields, hfails⟩

theorem not_isHit_of_fields_eq_nil (h : search.fields = []) : ¬search.IsHit t row := by
  rintro ⟨f, hf, -⟩
  rw [h] at hf
  exact List.not_mem_nil hf

theorem fields_of_ofSchema {s : Schema} {fields : Option (List String)}
    (h : ofSchema s fields = .ok search) : search.fields = fields.getD s.searchFields := by
  cases fields with
  | none =>
      obtain rfl := Except.ok.inj h
      rfl
  | some names =>
      obtain ⟨-, -, h⟩ := Result.bind_eq_ok.1 h
      obtain rfl := Except.ok.inj h
      rfl

/-- **What a search finds.** A search of a schema looks into the given fields, or into all that the
schema searches. A missing or blank term is found in all rows. Any other term is decided on a row
unless a value that is looked at is too long to be written, which is the fault then; it is found where
it is hit, and in every row if there is no field to look into. So the search finds a row exactly if it
is a hit as long as it looks into some field and reads the values up to the hit, and only so. -/
theorem finds_hits_iff {s : Schema} {fields : Option (List String)}
    (h : ofSchema s fields = .ok search) :
    search.fields = fields.getD s.searchFields ∧
    (∀ row, search.Finds .null row true) ∧
    (∀ t row, Text.trim t = "" → search.Finds (.text t) row true) ∧
    (∀ t row, Text.trim t ≠ "" →
      (Reads search.fields t row → ∃ found, search.Finds (.text t) row found ∧
        (found = true ↔ search.fields = [] ∨ search.IsHit t row)) ∧
      (¬Reads search.fields t row → ∃ p, (search.compile (.text t)).result = .ok p ∧
        p.holds row = .error .longInteger)) ∧
    (∀ t row, Text.trim t ≠ "" →
      ((search.Finds (.text t) row true ↔ search.IsHit t row) ↔
        search.fields ≠ [] ∧ (search.IsHit t row → Reads search.fields t row))) := by
  refine ⟨fields_of_ofSchema h, fun row => finds_null, fun t row ht => (finds_blank_iff ht).2 rfl,
    fun t row ht => ?_, fun t row ht => ?_⟩
  · have hcompiled := search.result_compile_text t
    rw [if_neg ht] at hcompiled
    rcases finds_cases search t row with ⟨hreads, found, hfound, hiff⟩ | ⟨hlong, -, hfails⟩
    · exact ⟨fun _ => ⟨found, (finds_text_iff ht).2 hfound, hiff⟩, fun hnot => absurd hreads hnot⟩
    · exact ⟨fun hreads => absurd hreads hlong, fun _ => ⟨_, hcompiled, hfails⟩⟩
  · rw [finds_text_iff ht]
    rcases finds_cases search t row with ⟨hreads, found, hfound, hiff⟩ | ⟨hlong, hne, hfails⟩
    · rw [hfound, Except.ok.injEq, hiff]
      by_cases hfields : search.fields = []
      · simp [hfields, not_isHit_of_fields_eq_nil hfields]
      · simp [hfields, hreads]
    · rw [hfails]
      simp [hne, hlong]

end Search

/-! ## Searched and unsearched directories -/

namespace Directory

/-- People, who are searched by their name and their address if there is one. -/
def people : Schema where
  entity := "people"
  fields := [("id", ⟨.number, Kind.number.operators, true, false, [], false⟩),
    ("name", ⟨.text, Kind.text.operators, true, true, [], false⟩),
    ("address", ⟨.text, Kind.text.operators, false, true, [], true⟩)]
  tieBreaker := "id"
  defaultSort := []

/-- Rooms, which have a number only. -/
def rooms : Schema where
  entity := "rooms"
  fields := [("id", ⟨.number, Kind.number.operators, true, false, [], false⟩)]
  tieBreaker := "id"
  defaultSort := []

end Directory

namespace Search

/-- People are searched through two fields. A percent sign in the term is looked for as it is, and
the sign of the unit of temperature is the same letter as its lower case. -/
theorem finds_hits_people :
    let row := Value.record [("name", .text "100 % k"), ("address", .text "5%\u212A, upstairs")]
    ∃ search, ofSchema Directory.people none = .ok search ∧
      search.fields = ["name", "address"] ∧
      search.Finds (.text " %k ") row true := by
  intro row
  have hsearch : ofSchema Directory.people none = .ok ⟨"people", ["name", "address"]⟩ := rfl
  have hname : row.fieldOrNull "name" = .text "100 % k" := by
    simp [row, Value.record, Value.fieldOrNull, Value.field?, Value.entryNamed?]
  have haddress : row.fieldOrNull "address" = .text "5%\u212A, upstairs" := by
    simp [row, Value.record, Value.fieldOrNull, Value.field?, Value.entryNamed?]
  refine ⟨_, hsearch, rfl, ?_⟩
  have hreads : Reads ["name", "address"] " %k " row := by
    rw [reads_cons_iff, reads_cons_iff, hname, haddress]
    exact ⟨rfl, .inr ⟨rfl, .inr reads_nil⟩⟩
  have hexact := (finds_hits_iff hsearch).2.2.2.2 " %k " row (by decide +kernel)
  refine (hexact.2 ⟨List.cons_ne_nil _ _, fun _ => hreads⟩).2 ⟨"address", by simp, ?_⟩
  rw [haddress]
  refine ⟨nofun, _, rfl, ['%', '\u212A'], ⟨['5'], ", upstairs".toList, by decide +kernel⟩, ?_⟩
  have hterm : (Text.trim " %k ").toList = ['%', 'k'] := by decide +kernel
  rw [hterm]
  refine .cons (Text.fold_eq_fold_iff.1 rfl) (.cons (Text.fold_eq_fold_iff.1 ?_) .nil)
  decide +kernel

/-- Rooms are searched through no field: the schema is consistent, and a term that is hit nowhere is
found in every room. -/
theorem finds_hits_fails :
    let row := Value.record [("id", .int 1)]
    Directory.rooms.contradiction? = none ∧
    ∃ search, ofSchema Directory.rooms none = .ok search ∧
      Text.trim "x" ≠ "" ∧ search.Finds (.text "x") row true ∧ ¬search.IsHit "x" row := by
  intro row
  refine ⟨by cbv, ⟨"rooms", []⟩, rfl, by decide +kernel, ⟨.always, ?_, ?_⟩, ?_⟩
  · cbv
  · rw [Predicate.holds]
  · exact not_isHit_of_fields_eq_nil rfl

end Search

end Listing
