import Listing.Proofs.CursorRoundTrip
import Listing.Proofs.KeysetPages
import Listing.Proofs.QuietValues
import Listing.Settings.Service

/-!
# Cursors that pages hand out

A cursor on a page was sealed for a row of the store (`Pager.sealsRows_of_keysetPage`), and whatever a
field accepts is accepted again once it is read back (`Key.exists_accepted`). So a cursor of a page is
resumed unless it is longer than the settings admit (`Pager.cursor_resumes_iff`). Nothing compares
the two when a cursor is made, and no cursor is as short as the least length that may be set
(`Sealer.lt_length_of_sealRow`).
-/

set_option autoImplicit false

namespace Listing

open Text

/-! ## Values that fields accept -/

/-- A decimal, a date or a point in time in the value is within the range of its type. -/
def Value.IsInRange : Value → Prop
  | decimal d => d.IsInRange
  | instant t => t.isValid = true
  | day d => d.isValid = true
  | _ => True

/-- The row has, under every key, a value that the field accepts and that is within the range of its
type. -/
def Schema.AcceptsKeys (s : Schema) (keys : List SortKey) (row : Value) : Prop :=
  ∀ k ∈ keys, ∃ f, s.get? k.field = some f ∧ f.accepts (row.fieldOrNull k.field) = true ∧
    (row.fieldOrNull k.field).IsInRange

/-- A collection or nothing is accepted by no field. -/
theorem Field.isCarried_of_accepts {f : Field} {v : Value} (h : f.accepts v = true)
    (hrange : v.IsInRange) : v.IsCarried ∨ (∃ x, v = .float x) ∨ ∃ w, v = .member w := by
  obtain ⟨kind⟩ := f
  cases v with
  | bool | int | text | uuid => exact .inl trivial
  | decimal d => exact .inl hrange
  | instant t => exact .inl hrange
  | day d => exact .inl hrange
  | float x => exact .inr (.inl ⟨x, rfl⟩)
  | member w => exact .inr (.inr ⟨w, rfl⟩)
  | null | list | tuple | map | object => cases kind <;> exact absurd h Bool.false_ne_true

/-- **What a field accepts is accepted again** when it is read back, a number in floating point with
whatever value its text stands for. -/
theorem Key.exists_accepted {f : Field} {v : Value} {form : Json} (haccepts : f.accepts v = true)
    (hrange : v.IsInRange) (hform : write v = .ok form) (hw : isWritable form = true) :
    ∃ w, read form.reread = .ok w ∧ f.accepts w = true := by
  rcases f.isCarried_of_accepts haccepts hrange with hcarried | ⟨x, rfl⟩ | ⟨w, rfl⟩
  · obtain ⟨form', hform', hwritable, hback⟩ := exists_form hcarried
    obtain rfl := Except.ok.inj (hform'.symm.trans hform)
    exact ⟨v.settled, (hback (hwritable.1 hw)).2, by rw [Field.accepts_settled, haccepts]⟩
  · obtain rfl := Except.ok.inj hform
    refine ⟨.float x.reread, rfl, ?_⟩
    obtain ⟨kind⟩ := f
    cases kind <;> exact haccepts
  -- a member of an enumeration comes back as its value, which must be a choice
  · obtain ⟨kind, operators, sortable, searchable, choices, nullable⟩ := f
    obtain ⟨v, type, name⟩ := w
    obtain ⟨s, rfl⟩ : ∃ s, v = .text s := by
      cases kind
      case choice =>
        cases v with
        | text s => exact ⟨s, rfl⟩
        | _ => exact absurd haccepts Bool.false_ne_true
      all_goals exact absurd haccepts Bool.false_ne_true
    obtain rfl := Except.ok.inj hform
    refine ⟨.text s, rfl, ?_⟩
    cases kind
    case choice => exact haccepts
    all_goals exact absurd haccepts Bool.false_ne_true

namespace Sealer

/-- The forms of accepted values are accepted as keys. -/
theorem exists_readKeys {s : Sealer} {row : Value} {keys : List SortKey} :
    ∀ {values : List Value} {forms : List Json}, s.schema.AcceptsKeys keys row →
      keyValues row keys = .ok values → Key.writeAll values = .ok forms →
      forms.all Key.isWritable = true →
      ∃ found, s.readKeys keys (Json.rereadItems forms) = .ok found := by
  induction keys with
  | nil =>
      intro values forms _ _ _ _
      exact ⟨[], by cases forms <;> rfl⟩
  | cons k keys ih =>
      intro values forms hrow hvalues hforms hw
      obtain ⟨f, hf, haccepts, hrange⟩ := hrow k (by simp)
      obtain ⟨v, rest, hv, hrest, rfl⟩ := keyValues_cons hvalues
      rw [hv] at haccepts hrange
      rw [Key.writeAll] at hforms
      obtain ⟨form, hform, hforms⟩ := Result.bind_eq_ok.1 hforms
      obtain ⟨more, hmore, hforms⟩ := Result.bind_eq_ok.1 hforms
      obtain rfl := Except.ok.inj hforms
      rw [List.all_cons, Bool.and_eq_true] at hw
      obtain ⟨w, hread, hagain⟩ := Key.exists_accepted haccepts hrange hform hw.1
      obtain ⟨found, hfound⟩ := ih (fun k' hk' => hrow k' (List.mem_cons_of_mem k hk')) hrest hmore
        hw.2
      have hkey : s.readKey k.field form.reread = .ok w := by
        rw [readKey, hread]
        simp only [hf, hagain, if_true]
      refine ⟨w :: found, ?_⟩
      rw [Json.rereadItems, readKeys, hkey, hfound]
      rfl

/-- **A row that was sealed is resumed**, unless its cursor is longer than the sealer admits. -/
theorem openText_sealRow {s : Sealer} {order : SortOrder} {row : Value} {side : Side} {t : String}
    (hrow : s.schema.AcceptsKeys order.keys row) (ht : s.sealRow order row side = .ok t) :
    ∃ here, ∀ long, s.exceeds t = .ok long →
      s.openText order t = if long then refuse .tooLong else .ok here := by
  obtain ⟨values, hvalues, ht⟩ := Result.bind_eq_ok.1 ht
  obtain ⟨forms, hforms, hreadable, hw, hlength, rfl⟩ := exists_contents ht
  obtain ⟨found, hfound⟩ := exists_readKeys hrow hvalues hforms hw
  exact ⟨⟨found, side⟩, fun long hlong => s.openText_token order side hreadable hlength hfound hlong⟩

/-- **No cursor is short**: a payload and a signature take more than 64 characters. -/
theorem lt_length_of_sealRow {s : Sealer} {order : SortOrder} {row : Value} {side : Side} {t : String}
    (ht : s.sealRow order row side = .ok t) : 64 < t.length := by
  obtain ⟨values, -, ht⟩ := Result.bind_eq_ok.1 ht
  obtain ⟨forms, -, -, -, -, rfl⟩ := exists_contents ht
  have hquoted : ∀ text, 2 ≤ (Json.quotedChars text).length := by
    intro text
    rw [Json.quotedChars, List.length_cons, List.length_append, List.length_singleton]
    omega
  have hentity := hquoted s.schema.entity
  have hsignature := hquoted order.signature
  rw [length_token, length_chars_contents]
  omega

end Sealer

/-! ## Cursors of pages -/

namespace Pager

/-- A sealed cursor stands for a row. -/
theorem exists_row_of_sealOptional {p : Pager} {order : SortOrder} {side : Side}
    {row : Option Value} {t : String} (h : p.sealOptional order side row = .ok (some t)) :
    ∃ r, row = some r ∧ p.sealer.sealRow order r side = .ok t := by
  cases row with
  | none => exact absurd h (by simp [sealOptional])
  | some r =>
      obtain ⟨t', ht, heq⟩ := Result.bind_eq_ok.1 h
      obtain rfl := Option.some.inj (Except.ok.inj heq)
      exact ⟨r, rfl, ht⟩

theorem result_fetch_eq (p : Pager) (w : Window) :
    (p.fetch w).result = w.predicate.written >>= fun _ => (p.store.fetch w).result := by
  rw [fetch]
  simp only [Traced.result_bind, Traced.result_liftM, Traced.result_log, Result.ok_bind]

/-- The cursors of the page were sealed for rows of a window of the store. -/
def SealsRows (p : Pager) (order : SortOrder) (page : KeysetPage) : Prop :=
  ∃ w rows, (p.store.fetch w).result = .ok rows ∧ ∀ t, page.next = some t ∨ page.previous = some t →
    ∃ row ∈ rows, ∃ side, p.sealer.sealRow order row side = .ok t

/-- Cursors made for rows that may be there are made for rows of the window. -/
theorem exists_row_of_sealed {p : Pager} {order : SortOrder} {rows : List Value}
    {next previous : Option Value} {page : KeysetPage}
    (hnext : p.sealOptional order .after next = .ok page.next)
    (hprevious : p.sealOptional order .before previous = .ok page.previous)
    (hmem : ∀ r, next = some r ∨ previous = some r → r ∈ rows) {t : String}
    (ht : page.next = some t ∨ page.previous = some t) :
    ∃ row ∈ rows, ∃ side, p.sealer.sealRow order row side = .ok t := by
  rcases ht with ht | ht
  · rw [ht] at hnext
    obtain ⟨r, hr, hseal⟩ := exists_row_of_sealOptional hnext
    exact ⟨r, hmem r (.inl hr), .after, hseal⟩
  · rw [ht] at hprevious
    obtain ⟨r, hr, hseal⟩ := exists_row_of_sealOptional hprevious
    exact ⟨r, hmem r (.inr hr), .before, hseal⟩

theorem sealsRows_of_forwardPage {p : Pager} {criteria : Predicate} {order : SortOrder} {n : Int}
    {from? : Option Position} {page : KeysetPage}
    (h : (p.forwardPage criteria order n from?).result = .ok page) : p.SealsRows order page := by
  unfold forwardPage at h
  simp only [Traced.result_bind, Traced.result_liftM, result_fetch_eq] at h
  obtain ⟨q, -, h⟩ := Result.bind_eq_ok.1 h
  obtain ⟨rows, hfetch, h⟩ := Result.bind_eq_ok.1 h
  obtain ⟨-, -, hrows⟩ := Result.bind_eq_ok.1 hfetch
  obtain ⟨next, hnext, h⟩ := Result.bind_eq_ok.1 h
  obtain ⟨previous, hprevious, h⟩ := Result.bind_eq_ok.1 h
  obtain rfl := Except.ok.inj h
  refine ⟨_, rows, hrows, fun t ht => exists_row_of_sealed hnext hprevious ?_ ht⟩
  rintro r (hr | hr) <;> split at hr
  · exact List.mem_of_mem_take (List.mem_of_getLast? hr)
  · exact absurd hr (by simp)
  · exact List.mem_of_mem_take (List.mem_of_head? hr)
  · exact absurd hr (by simp)

theorem sealsRows_of_backwardPage {p : Pager} {criteria : Predicate} {order : SortOrder} {n : Int}
    {here : Position} {page : KeysetPage}
    (h : (p.backwardPage criteria order n here).result = .ok page) : p.SealsRows order page := by
  unfold backwardPage at h
  simp only [Traced.result_bind, Traced.result_liftM, result_fetch_eq] at h
  obtain ⟨q, -, h⟩ := Result.bind_eq_ok.1 h
  obtain ⟨rows, hfetch, h⟩ := Result.bind_eq_ok.1 h
  obtain ⟨-, -, hrows⟩ := Result.bind_eq_ok.1 hfetch
  obtain ⟨previous, hprevious, h⟩ := Result.bind_eq_ok.1 h
  obtain ⟨next, hnext, h⟩ := Result.bind_eq_ok.1 h
  obtain rfl := Except.ok.inj h
  refine ⟨_, rows, hrows, fun t ht => exists_row_of_sealed hnext hprevious ?_ ht⟩
  rintro r (hr | hr)
  · exact List.mem_of_mem_take (List.mem_reverse.1 (List.mem_of_getLast? hr))
  · split at hr
    · exact List.mem_of_mem_take (List.mem_reverse.1 (List.mem_of_head? hr))
    · exact absurd hr (by simp)

/-- **A cursor of a page was sealed for a row of the store**, whichever way the page was read. -/
theorem sealsRows_of_keysetPage {p : Pager} {criteria : Predicate} {order : SortOrder}
    {size : Value} {start : Start} {page : KeysetPage}
    (h : (p.keysetPage criteria order size start).result = .ok page) : p.SealsRows order page := by
  unfold keysetPage at h
  simp only [Traced.result_bind, Traced.result_liftM] at h
  obtain ⟨n, -, h⟩ := Result.bind_eq_ok.1 h
  obtain ⟨from?, -, h⟩ := Result.bind_eq_ok.1 h
  unfold pageAt at h
  split at h
  · exact sealsRows_of_backwardPage h
  · exact sealsRows_of_forwardPage h

end Pager

/-! ## Settings -/

/-- A value that can be compared to one integer can be compared to any: it is a number, and no decimal
without a value. -/
theorem Value.exists_compares_int {v : Value} {op : Comparison} {m : Int} {b : Bool}
    (h : v.compares op (.int m) = .ok b) (op' : Comparison) (n : Int) :
    ∃ b', (Value.int n).compares op' v = .ok b' := by
  cases hx : v.number? with
  | none =>
      -- what is no number has no order to an integer
      refine absurd h ?_
      cases v with
      | list vs => simp [compares]
      | tuple vs => simp [compares]
      | bool | int | float | decimal => exact absurd hx (by simp [number?])
      | null | text | instant | day | uuid | member | map | object =>
          simp [compares, compareScalars, number?]
  | some x =>
      have hsignals : x.orderSignals (.int m) = (Number.int n).orderSignals x := by
        have hnone : ∀ i, (Number.int i).isNaN = false := fun _ => rfl
        rw [Number.orderSignals, Number.orderSignals, hnone, hnone, Bool.or_false, Bool.false_or]
        cases x <;> rfl
      rw [compares_of_number op hx rfl] at h
      rw [compares_of_number op' rfl hx, ← hsignals]
      split at h
      · exact absurd h (by simp)
      · next hquiet => exact ⟨_, if_neg hquiet⟩

namespace ServiceSettings

/-- The settings admit a cursor of the length of the text. -/
def Admits (s : ServiceSettings) (t : String) : Prop :=
  (Value.int t.length).compares .gt s.maxCursorLength = .ok false

theorem compares_of_comparable {op : Comparison} {v w : Value} {b : Bool}
    (h : comparable op v w = .ok b) : v.compares op w = .ok b := by
  unfold comparable at h
  split at h
  · next hb => rw [hb, Except.ok.inj h]
  · exact absurd h (by simp)
  · exact absurd h (by simp)

theorem admits_iff {s : ServiceSettings} {sealer : Sealer}
    (h : sealer.maxLength = s.maxCursorLength) (t : String) :
    s.Admits t ↔ sealer.exceeds t = .ok false := by
  rw [Admits, Sealer.exceeds, h]
  cases (Value.int t.length).compares .gt s.maxCursorLength <;> simp

theorem refuse_ne_ok {α : Type} (name : String) (v : Value) (reason : String) (a : α) :
    refuse name v reason ≠ .ok a := by
  obtain ⟨e, he, -⟩ := exists_refuse (α := α) name v reason
  intro h
  injection he.symm.trans h

/-- Settings that are in bounds have a bound that can be compared to any length. -/
theorem exists_compares_of_validate {s s' : ServiceSettings} (h : s.validate = .ok s') (n : Int) :
    ∃ b, (Value.int n).compares .gt s.maxCursorLength = .ok b := by
  suffices hbound : ∃ b, comparable .lt s.maxCursorLength (.int 64) = .ok b by
    obtain ⟨b, hb⟩ := hbound
    exact Value.exists_compares_int (compares_of_comparable hb) .gt n
  -- the length of cursors is the last thing checked
  cases hlast : comparable .lt s.maxCursorLength (.int 64) with
  | ok b => exact ⟨b, rfl⟩
  | error e =>
      unfold validate at h
      simp only [bind, Except.bind, hlast] at h
      -- whatever is found before it, nothing is accepted after it failed
      repeat' split at h
      all_goals exact absurd h (by simp [refuse_ne_ok])

end ServiceSettings

/-! ## Bounded cursors -/

namespace Bounded

/-- Settings with a bound on the length of cursors. -/
def settings (limit : Int) : ServiceSettings :=
  ⟨.text "0123456789abcdef", .int 20, .int 100, .int limit⟩

/-- The sealer with these settings. -/
def sealer (limit : Int) : Sealer :=
  { key := encode "0123456789abcdef", schema := Grouped.schema, maxLength := .int limit }

/-- A pager of two items with these settings. -/
def pager (limit : Int) : Pager :=
  Pager.onRows ⟨(Memory.ofRows []).store, sealer limit, .int 100⟩ Grouped.two

/-- The keys of the first item. -/
def forms : List Json :=
  [Key.tagged "s" (.text "a"), Key.tagged "i" (.int 1)]

/-- The cursor after the first item. -/
def token (limit : Int) : String :=
  (sealer limit).token ((sealer limit).contents Grouped.order .after forms)

theorem acceptsKeys (limit : Int) (w : Window) (rows : List Value)
    (h : ((pager limit).store.fetch w).result = .ok rows) :
    ∀ row ∈ rows, Grouped.schema.AcceptsKeys Grouped.order.keys row := by
  have hitem : ∀ group id, Grouped.schema.AcceptsKeys Grouped.order.keys (Grouped.row group id) := by
    intro group id k hk
    rcases List.mem_pair.1 hk with rfl | rfl
    · exact ⟨_, rfl, rfl, trivial⟩
    · exact ⟨_, rfl, rfl, trivial⟩
  intro row hrow
  rw [pager, Pager.onRows, Memory.result_fetch] at h
  rcases List.mem_pair.1 (Memory.mem_of_window h row hrow).1 with rfl | rfl
  · exact hitem "a" 1
  · exact hitem "a" 2

/-- The first page of one item has the cursor after it. -/
theorem exists_page (limit : Int) : ∃ page, ((pager limit).keysetPage Grouped.allOrFirst
    Grouped.order (.int 1) .first).result = .ok page ∧ page.next = some (token limit) := by
  let p : Pager := ⟨(Memory.ofRows []).store, sealer limit, .int 100⟩
  have hsize : Pager.admitSize p.maxPageSize (.int 1) = .ok (1 : Nat) := rfl
  have hrows : Listable p.sealer.schema Grouped.order Grouped.two := Grouped.listable_two
  obtain ⟨page, hpage⟩ := Pager.exists_firstPage (p := p) (n := 1) hrows
    Grouped.isWritable_allOrFirst Grouped.decides_two Grouped.arranged_two fun r hr =>
      Grouped.writable_two r (Pager.mem_of_next hr)
  have hshows := Pager.shows_of_firstPage hrows Grouped.decides_two Grouped.arranged_two hpage
  have hmarks : (sealer limit).Marks Grouped.order .after (some (Grouped.row "a" 1)) page.next :=
    hshows.next
  obtain ⟨t, hnext, hseal, -⟩ := hmarks.exists_cursor
  refine ⟨page, (Pager.answer_first hsize).trans hpage, ?_⟩
  have hposition : (sealer limit).sealPosition Grouped.order ⟨[.text "a", .int 1], .after⟩ = .ok t :=
    hseal
  obtain ⟨forms', hforms, -, -, -, rfl⟩ := Sealer.exists_contents hposition
  obtain rfl : forms = forms' := Except.ok.inj hforms
  exact hnext

theorem length_token (limit : Int) : (token limit).length = 150 := by
  have hentity : (Json.quotedChars (sealer limit).schema.entity).length = 7 := by
    show (Json.quotedChars "items").length = 7
    decide
  have hsignature : (Json.quotedChars Grouped.order.signature).length = 19 := by decide
  have hside : (Json.quotedChars Side.after.name).length = 7 := by decide
  have hforms : (Json.itemsChars forms).length = 17 := by
    have hdigit : Json.chars (.int 1) = ['1'] := by
      rw [Json.chars_int, integerChars, if_neg (by decide), show (1 : Int).natAbs = 1 from rfl, digits]
      rfl
    simp only [forms, Key.tagged, Json.itemsChars_cons_cons, Json.itemsChars_singleton,
      Json.chars_list, Json.chars_text, hdigit, List.length_append, List.length_cons, List.length_nil]
    decide
  rw [token, Sealer.length_token, Sealer.length_chars_contents, hentity, hsignature, hside, hforms]

end Bounded

namespace Pager

/-- **A cursor of a page is resumed unless it is longer than the settings admit**, for every store
whose rows hold, under each sort key, a value that the field accepts. One that is longer is rejected
for its length, and so is every one where the settings admit no more than 64 characters. -/
theorem cursor_resumes_iff {settings : ServiceSettings} (hsettings : settings.validate = .ok settings)
    {schema : Schema} {p : Pager}
    (hsealer : Sealer.ofSecret settings.cursorSecret schema settings.maxCursorLength = .ok p.sealer)
    {order : SortOrder}
    (hrows : ∀ w rows, (p.store.fetch w).result = .ok rows →
      ∀ row ∈ rows, schema.AcceptsKeys order.keys row)
    {criteria : Predicate} {size : Value} {start : Start} {page : KeysetPage}
    (hpage : (p.keysetPage criteria order size start).result = .ok page) {t : String}
    (ht : page.next = some t ∨ page.previous = some t) :
    ((∃ here, (p.sealer.resume order (.text t)).result = .ok here) ↔ settings.Admits t) ∧
    (¬ settings.Admits t → (p.sealer.resume order (.text t)).result = reject (.cursor "too long")) ∧
    (∀ limit, settings.maxCursorLength = .int limit → (settings.Admits t ↔ t.length ≤ limit)) ∧
    64 < t.length := by
  obtain ⟨w, rows, hfetch, hsealed⟩ := sealsRows_of_keysetPage hpage
  obtain ⟨row, hrow, side, hseal⟩ := hsealed t ht
  obtain ⟨-, hschema, hbound⟩ := Sealer.of_ofSecret hsealer
  obtain ⟨here, hopen⟩ := Sealer.openText_sealRow (hschema ▸ hrows w rows hfetch row hrow) hseal
  rw [ServiceSettings.admits_iff hbound]
  refine ⟨?_, ?_, fun limit hlimit => ?_, Sealer.lt_length_of_sealRow hseal⟩
  · rw [Sealer.result_resume]
    constructor
    · rintro ⟨here', hhere⟩
      split at hhere
      · next hopened => exact Sealer.exceeds_of_openText hopened
      · exact absurd hhere (by simp [reject])
      · exact absurd hhere (by simp)
    · intro hfits
      rw [hopen false hfits]
      exact ⟨here, rfl⟩
  · intro hlong
    -- settings in bounds leave no doubt whether the cursor is longer
    obtain ⟨long, hlength⟩ := ServiceSettings.exists_compares_of_validate hsettings t.length
    have hexceeds : p.sealer.exceeds t = .ok long := by rw [Sealer.exceeds, hbound, hlength]
    cases long with
    | false => exact absurd hexceeds hlong
    | true =>
        rw [Sealer.result_resume, hopen true hexceeds]
        rfl
  · rw [Sealer.exceeds_eq (hbound.trans hlimit), Except.ok.injEq, decide_eq_false_iff_not, Int.not_lt]

/-- The settings may admit cursors of 2048 characters: the cursor of the first item is resumed. -/
theorem cursor_resumes_bounded :
    (Bounded.settings 2048).validate = .ok (Bounded.settings 2048) ∧
    Sealer.ofSecret (Bounded.settings 2048).cursorSecret Grouped.schema
      (Bounded.settings 2048).maxCursorLength = .ok (Bounded.pager 2048).sealer ∧
    (∀ w rows, ((Bounded.pager 2048).store.fetch w).result = .ok rows →
      ∀ row ∈ rows, Grouped.schema.AcceptsKeys Grouped.order.keys row) ∧
    ∃ page, ((Bounded.pager 2048).keysetPage Grouped.allOrFirst Grouped.order (.int 1)
      .first).result = .ok page ∧ page.next = some (Bounded.token 2048) ∧
      ∃ here, ((Bounded.pager 2048).sealer.resume Grouped.order
        (.text (Bounded.token 2048))).result = .ok here := by
  have hsettings : (Bounded.settings 2048).validate = .ok (Bounded.settings 2048) := rfl
  refine ⟨hsettings, rfl, Bounded.acceptsKeys 2048, ?_⟩
  obtain ⟨page, hpage, hnext⟩ := Bounded.exists_page 2048
  obtain ⟨hresumed, -, hbound, -⟩ := cursor_resumes_iff hsettings (p := Bounded.pager 2048) rfl
    (Bounded.acceptsKeys 2048) hpage (.inl hnext)
  refine ⟨page, hpage, hnext, hresumed.2 ((hbound 2048 rfl).2 ?_)⟩
  rw [Bounded.length_token]
  decide

/-- Where they admit 64 characters, which is the least that they may, the cursor of the first item is
rejected: nothing asks how long a cursor is when it is made. -/
theorem cursor_resumes_fails :
    (Bounded.settings 64).validate = .ok (Bounded.settings 64) ∧
    Sealer.ofSecret (Bounded.settings 64).cursorSecret Grouped.schema
      (Bounded.settings 64).maxCursorLength = .ok (Bounded.pager 64).sealer ∧
    (∀ w rows, ((Bounded.pager 64).store.fetch w).result = .ok rows →
      ∀ row ∈ rows, Grouped.schema.AcceptsKeys Grouped.order.keys row) ∧
    Grouped.allOrFirst.Decides Grouped.two ∧
    ∃ page, ((Bounded.pager 64).keysetPage Grouped.allOrFirst Grouped.order (.int 1)
      .first).result = .ok page ∧ page.next = some (Bounded.token 64) ∧
      ((Bounded.pager 64).sealer.resume Grouped.order (.text (Bounded.token 64))).result =
        reject (.cursor "too long") := by
  refine ⟨rfl, rfl, Bounded.acceptsKeys 64, Grouped.decides_two, ?_⟩
  obtain ⟨page, hpage, hnext⟩ := Bounded.exists_page 64
  refine ⟨page, hpage, hnext, ?_⟩
  obtain ⟨w, rows, hfetch, hsealed⟩ := sealsRows_of_keysetPage hpage
  obtain ⟨row, hrow, side, hseal⟩ := hsealed _ (.inl hnext)
  obtain ⟨here, hopen⟩ := Sealer.openText_sealRow (Bounded.acceptsKeys 64 w rows hfetch row hrow)
    hseal
  have hlong : (Bounded.pager 64).sealer.exceeds (Bounded.token 64) = .ok true := by
    rw [Sealer.exceeds_eq rfl, Bounded.length_token]
    rfl
  rw [Sealer.result_resume, hopen true hlong]
  rfl

end Pager

end Listing
