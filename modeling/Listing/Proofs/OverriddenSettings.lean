import Mathlib.Data.List.Basic
import Listing.Proofs.CutTexts
import Listing.Proofs.PutEntries
import Listing.Proofs.RowFaults
import Listing.Proofs.TracedResult
import Listing.Settings.Service

/-!
# Settings that are given over the environment

A given value takes the place of what a variable says (`Entries.get?_override_of_mem`), but all
variables are read before. So a variable of a given setting counts after all if its text is not read
and no text of another setting is refused ahead of it; in every other case the settings are those of
an environment without such variables, errors included
(`ServiceSettings.ofEnvironment_withheld_iff`).
-/

set_option autoImplicit false

namespace Listing

open Text

/-! ## Variables -/

namespace SettingField

variable {group : String} {fields : List SettingField} {environment : Environment}

/-- The report on the text of a variable that is no integer. -/
def misreading (key text : String) : Report :=
  .config ("Setting '" ++ key ++ "' must be an integer, got " ++ quoted text)

/-- The text is refused as a value of the field. -/
def refuses (f : SettingField) (text : String) : Bool :=
  match f.type with
  | .integer =>
    match readLooseInteger text with
    | .read _ => false
    | _ => true
  | .truth | .text => false

/-- The variable of the field is set to a text that is refused. -/
def isMisset (group : String) (environment : Environment) (f : SettingField) : Bool :=
  match Entries.get? (f.variableName group) environment with
  | some text => f.refuses text
  | none => false

/-- The value of the field under its name, if its variable is set to a text that is read. -/
def reading? (group : String) (environment : Environment) (f : SettingField) :
    Option (String × Value) :=
  match Entries.get? (f.variableName group) environment with
  | some text => (f.readText (f.variableName group) text).toOption.map fun v => (f.name, v)
  | none => none

/-- The variable belongs to a field under one of the given names. -/
def isVariableOf (group : String) (fields : List SettingField) (names : List String)
    (key : String) : Bool :=
  fields.any fun f => names.contains f.name && f.variableName group == key

/-- The environment without the variables of the fields under the given names. -/
def withheld (group : String) (fields : List SettingField) (names : List String)
    (environment : Environment) : Environment :=
  environment.filter (!isVariableOf group fields names ·.1)

/-- Different fields have different variables. -/
def Distinguishes (group : String) (fields : List SettingField) : Prop :=
  ∀ f ∈ fields, ∀ g ∈ fields, f.variableName group = g.variableName group → f.name = g.name

theorem readText_of_refuses {f : SettingField} {text : String} (h : f.refuses text = true)
    (key : String) : f.readText key text = reject (misreading key text) := by
  unfold refuses at h
  unfold readText
  cases htype : f.type with
  | integer =>
      rw [htype] at h
      cases hread : readLooseInteger text with
      | read i => simp [hread] at h
      | tooLong n => rfl
      | malformed => rfl
  | truth | text => simp [htype] at h

theorem exists_readText_of_not_refuses {f : SettingField} {text : String}
    (h : f.refuses text = false) (key : String) : ∃ v, f.readText key text = .ok v := by
  unfold refuses at h
  unfold readText
  cases htype : f.type with
  | integer =>
      rw [htype] at h
      cases hread : readLooseInteger text with
      | read i => exact ⟨.int i, rfl⟩
      | tooLong n => simp [hread] at h
      | malformed => simp [hread] at h
  | truth | text => exact ⟨_, rfl⟩

/-- **The first variable that is refused stops the reading.** -/
theorem readAll_of_find? {f : SettingField}
    (h : fields.find? (isMisset group environment) = some f) :
    ∃ text, Entries.get? (f.variableName group) environment = some text ∧
      readAll group environment fields = reject (misreading (f.variableName group) text) := by
  induction fields with
  | nil => exact absurd h (by simp)
  | cons g fields ih =>
      rw [List.find?_cons] at h
      rw [readAll]
      cases hget : Entries.get? (g.variableName group) environment with
      | none =>
          simp only [isMisset, hget] at h
          exact ih h
      | some text =>
          simp only [isMisset, hget] at h
          cases hrefuses : g.refuses text with
          | true =>
              simp only [hrefuses, Option.some.injEq] at h
              subst h
              refine ⟨text, hget, ?_⟩
              dsimp only
              rw [readText_of_refuses hrefuses]
              rfl
          | false =>
              simp only [hrefuses] at h
              obtain ⟨v, hv⟩ := exists_readText_of_not_refuses hrefuses (g.variableName group)
              obtain ⟨text', hget', hrest⟩ := ih h
              refine ⟨text', hget', ?_⟩
              dsimp only
              rw [hv, hrest]
              rfl

/-- **Variables none of which is refused are read as they are set.** -/
theorem readAll_of_find?_eq_none (h : fields.find? (isMisset group environment) = none) :
    readAll group environment fields = .ok (fields.filterMap (reading? group environment)) := by
  induction fields with
  | nil => rfl
  | cons g fields ih =>
      rw [List.find?_cons] at h
      rw [readAll, List.filterMap_cons, reading?]
      cases hget : Entries.get? (g.variableName group) environment with
      | none =>
          simp only [isMisset, hget] at h
          exact ih h
      | some text =>
          simp only [isMisset, hget] at h
          cases hrefuses : g.refuses text with
          | true => simp [hrefuses] at h
          | false =>
              simp only [hrefuses] at h
              obtain ⟨v, hv⟩ := exists_readText_of_not_refuses hrefuses (g.variableName group)
              simp only [hv, ih h]
              rfl

/-! ## Withheld variables -/

section

variable {f : SettingField} (hd : Distinguishes group fields) (hf : f ∈ fields)
  (names : List String) (environment : Environment)

include hd hf

theorem get?_withheld :
    Entries.get? (f.variableName group) (withheld group fields names environment) =
      if names.contains f.name then none else Entries.get? (f.variableName group) environment := by
  have hvariable : isVariableOf group fields names (f.variableName group) =
      names.contains f.name := by
    rw [Bool.eq_iff_iff, isVariableOf, List.any_eq_true]
    constructor
    · rintro ⟨g, hg, hnamed⟩
      rw [Bool.and_eq_true, beq_iff_eq] at hnamed
      exact hd g hg f hf hnamed.2 ▸ hnamed.1
    · intro hname
      exact ⟨f, hf, by rw [hname, beq_self_eq_true]; rfl⟩
  rw [withheld, Entries.get?_filter (!isVariableOf group fields names ·), hvariable]
  cases names.contains f.name <;> rfl

theorem isMisset_withheld : isMisset group (withheld group fields names environment) f =
    (!names.contains f.name && isMisset group environment f) := by
  rw [isMisset, isMisset, get?_withheld hd hf]
  cases names.contains f.name <;> rfl

theorem reading?_withheld : reading? group (withheld group fields names environment) f =
    (reading? group environment f).filter (!names.contains ·.1) := by
  rw [reading?, reading?, get?_withheld hd hf]
  cases Entries.get? (f.variableName group) environment with
  | none => rw [ite_self, Option.filter_none]
  | some text =>
      cases hname : names.contains f.name with
      | true =>
          -- whatever is read has the name that is withheld
          cases hread : f.readText (f.variableName group) text <;>
            simp [hread, Except.toOption, Option.filter_some, List.contains_iff_mem.1 hname]
      | false =>
          have hname : f.name ∉ names := by simpa using hname
          cases hread : f.readText (f.variableName group) text <;>
            simp [hread, Except.toOption, Option.filter_some, hname]

end

/-- Withheld variables are passed over in the search for a refused one. -/
theorem find?_isMisset_withheld (hd : Distinguishes group fields) (names : List String)
    (environment : Environment) :
    fields.find? (isMisset group (withheld group fields names environment)) =
      fields.find? fun f => !names.contains f.name && isMisset group environment f := by
  rw [← List.head?_filter, ← List.head?_filter,
    List.filter_congr fun f hf => isMisset_withheld hd hf names environment]

/-- What is read is what was read before, without the withheld names. -/
theorem filterMap_reading?_withheld (hd : Distinguishes group fields) (names : List String)
    (environment : Environment) :
    fields.filterMap (reading? group (withheld group fields names environment)) =
      (fields.filterMap (reading? group environment)).filter (!names.contains ·.1) := by
  rw [List.filter_filterMap]
  exact List.filterMap_congr fun _ hf => reading?_withheld hd hf names environment

/-- What is read is under the names of the fields. -/
theorem name_of_mem_filterMap_reading? {e : String × Value}
    (h : e ∈ fields.filterMap (reading? group environment)) : ∃ f ∈ fields, f.name = e.1 := by
  obtain ⟨f, hf, he⟩ := List.mem_filterMap.1 h
  rw [reading?] at he
  split at he
  · obtain ⟨v, -, rfl⟩ := Option.map_eq_some_iff.1 he
    exact ⟨f, hf, rfl⟩
  · exact absurd he (by simp)

theorem checkPresent_congr {values others : List (String × Value)}
    (h : ∀ f ∈ fields, Entries.get? f.name values = Entries.get? f.name others) :
    checkPresent group values fields = checkPresent group others fields := by
  induction fields with
  | nil => rfl
  | cons f fields ih =>
      rw [List.forall_mem_cons] at h
      rw [checkPresent, checkPresent, h.1, ih h.2]

/-- A field without value and default is reported as missing. -/
theorem checkPresent_cases (group : String) (values : List (String × Value))
    (fields : List SettingField) : checkPresent group values fields = .ok () ∨
      ∃ name : String, checkPresent group values fields = reject (.missingSetting name) := by
  induction fields with
  | nil => exact .inl rfl
  | cons f fields ih =>
      rw [checkPresent]
      split
      · exact .inr ⟨_, rfl⟩
      · exact ih

/-- The report on a misread variable tells the variable, whose name has no quote in it. -/
theorem misreading_inj {key key' text text' : String} (hkey : '\'' ∉ key.toList)
    (hkey' : '\'' ∉ key'.toList) (h : misreading key text = misreading key' text') :
    key = key' := by
  injection congrArg Report.message h with hmessage
  have hchars := congrArg String.toList hmessage
  simp only [String.toList_append, List.append_assoc, List.append_cancel_left_eq] at hchars
  have hcut : ∀ {k : String} (rest : List Char), '\'' ∉ k.toList →
      cutChars '\'' (k.toList ++ ("' must be an integer, got ".toList ++ rest)) =
        some (k.toList, " must be an integer, got ".toList ++ rest) := fun rest hk =>
    cutChars_append hk (" must be an integer, got ".toList ++ rest)
  have hparts := (hcut _ hkey).symm.trans ((congrArg (cutChars '\'') hchars).trans (hcut _ hkey'))
  exact String.toList_inj.1 (Prod.mk.inj (Option.some.inj hparts)).1

end SettingField

/-! ## Settings of the service -/

namespace ServiceSettings

open SettingField (misreading isMisset reading?)

/-- The environment without the variables of the settings under the given names. -/
def withheld (names : List String) (environment : Environment) : Environment :=
  SettingField.withheld group fields names environment

theorem distinguishes_fields : SettingField.Distinguishes group fields := by
  unfold SettingField.Distinguishes
  decide +kernel

/-- The name is that of a setting. -/
def isKnown (name : String) : Bool :=
  fields.any (·.name == name)

/-- Settings are built from what stands under the names of the fields and from the names that are
not theirs. -/
theorem build_congr {values others : List (String × Value)}
    (h : ∀ name, Entries.get? name values = Entries.get? name others)
    (hunknown : values.filter (!isKnown ·.1) = others.filter (!isKnown ·.1)) :
    build values = build others := by
  have hfind : ∀ (p : String × Value → Bool) (es : List (String × Value)),
      (∀ e, p e = !isKnown e.1) → es.find? p = (es.filter (!isKnown ·.1)).head? := by
    intro p es hp
    rw [List.head?_filter, funext hp]
  have hunknown? : ∀ e : String × Value, fields.all (·.name != e.1) = !isKnown e.1 := by
    intro e
    rw [isKnown, List.not_any_eq_all_not]
    rfl
  have hvalues : fields.map (·.valueIn values) = fields.map (·.valueIn others) :=
    List.map_congr_left fun f _ => by rw [SettingField.valueIn, SettingField.valueIn, h]
  have hconstruct : construct values = construct others := by
    rw [construct, construct, hfind _ values hunknown?, hfind _ others hunknown?, hunknown,
      hvalues, h]
  rw [build, build, SettingField.checkPresent_congr fun f _ => h f.name, hconstruct]

/-- **Given values take the place of what was read under their names.** -/
theorem build_override_filter {values overrides : List (String × Value)}
    (hknown : ∀ e ∈ values, isKnown e.1 = true) :
    build (Entries.override (values.filter (!(overrides.map (·.1)).contains ·.1)) overrides) =
      build (Entries.override values overrides) := by
  apply build_congr
  · intro name
    by_cases hname : name ∈ overrides.map (·.1)
    · exact Entries.get?_override_of_mem hname _ _
    · rw [Entries.get?_override_of_not_mem hname, Entries.get?_override_of_not_mem hname,
        Entries.get?_filter (!(overrides.map (·.1)).contains ·), if_pos]
      simpa using hname
  · have hnone : ∀ es : List (String × Value), (∀ e ∈ es, isKnown e.1 = true) →
        es.filter (!isKnown ·.1) = [] := fun es hes =>
      List.filter_eq_nil_iff.2 fun e he => by simp [hes e he]
    rw [Entries.filter_override (!isKnown ·), Entries.filter_override (!isKnown ·),
      hnone values hknown, hnone _ fun e he => hknown e (List.mem_of_mem_filter he)]

/-! ## Faults of building -/

/-- A report by which settings are refused is about the value of a setting. -/
def RefusesValues {α : Type} (x : Except SettingsFault α) : Prop :=
  ∀ r, x = .error (.fault (.reported r)) → r.kind = .settingValue

theorem refusesValues_ok {α : Type} (a : α) : RefusesValues (.ok a) :=
  nofun

theorem refusesValues_refuse {α : Type} (name : String) (v : Value) (reason : String) :
    RefusesValues (refuse name v reason : Except SettingsFault α) := by
  obtain ⟨e, he, hreport⟩ := exists_refuse (α := α) name v reason
  intro r h
  injection he.symm.trans h with h
  injection h with h
  exact hreport r h

theorem refusesValues_displayed (v : Value) :
    RefusesValues (v.displayed.mapError SettingsFault.fault) := by
  intro r h
  rw [Value.displayed] at h
  split at h
  · injection h
  · injection h with h
    injection h with h
    exact absurd h Fault.noConfusion

theorem RefusesValues.bind {α β : Type} {x : Except SettingsFault α}
    {f : α → Except SettingsFault β} (hx : RefusesValues x) (hf : ∀ a, RefusesValues (f a)) :
    RefusesValues (x >>= f) := by
  cases x with
  | error e =>
      intro r h
      injection h with h
      exact hx r (congrArg Except.error h)
  | ok a => exact hf a

theorem RefusesValues.ite {α : Type} {c : Prop} [Decidable c] {x y : Except SettingsFault α}
    (hx : RefusesValues x) (hy : RefusesValues y) : RefusesValues (if c then x else y) := by
  split
  · exact hx
  · exact hy

theorem refusesValues_lengthOf (v : Value) : RefusesValues (lengthOf v) := by
  cases v <;> exact nofun

theorem refusesValues_comparable (op : Comparison) (v w : Value) :
    RefusesValues (comparable op v w) := by
  intro r h
  unfold comparable at h
  split at h
  · exact absurd h (by simp)
  · exact absurd h (by simp)
  · next e _ hcompares =>
      -- a comparison fails plainly, so its fault is no report
      injection h with h
      injection h with h
      subst h
      exact absurd (Value.failsPlainly_compares op v w _ hcompares) id

theorem refusesValues_validate (s : ServiceSettings) : RefusesValues s.validate := by
  unfold validate
  refine (refusesValues_lengthOf _).bind fun length => .ite (refusesValues_refuse _ _ _) ?_
  refine (refusesValues_comparable _ _ _).bind fun tooFew => .ite (refusesValues_refuse _ _ _) ?_
  have hpages : RefusesValues (do
      let most ← s.maxPageSize.displayed.mapError SettingsFault.fault
      refuse "default_page_size" s.defaultPageSize
        ("must be between 1 and max_page_size (" ++ most ++ ")") :
          Except SettingsFault ServiceSettings) :=
    (refusesValues_displayed _).bind fun most => refusesValues_refuse _ _ _
  refine (refusesValues_comparable _ _ _).bind fun enough => .ite ?_ ?_
  · refine (refusesValues_comparable _ _ _).bind fun fits => .ite hpages ?_
    exact (refusesValues_comparable _ _ _).bind fun short =>
      .ite (refusesValues_refuse _ _ _) (refusesValues_ok _)
  · refine (refusesValues_ok false).bind fun fits => .ite hpages ?_
    exact (refusesValues_comparable _ _ _).bind fun short =>
      .ite (refusesValues_refuse _ _ _) (refusesValues_ok _)

theorem refusesValues_construct (values : List (String × Value)) :
    RefusesValues (construct values) := by
  unfold construct
  split
  · exact nofun
  · split
    · exact refusesValues_validate _
    · exact nofun

/-- **No setting that is built is reported as a misread variable.** -/
theorem build_ne_misreading (values : List (String × Value)) (key text : String) :
    build values ≠ reject (misreading key text) := by
  intro h
  unfold build at h
  rcases SettingField.checkPresent_cases group values fields with hpresent | ⟨name, hpresent⟩
  · rw [hpresent, Result.ok_bind] at h
    split at h
    · exact absurd h (reject_ne_ok _ _).symm
    · next m _ =>
        -- the two reports of a faulty configuration begin with different letters
        injection h with h
        injection h with h
        injection congrArg Report.message h with hmessage
        have hchars := congrArg (fun s : String => s.toList.head?) hmessage
        simp [String.toList_append] at hchars
    · next e hconstruct =>
        injection h with h
        subst h
        have hkind : ErrorKind.config = .settingValue := refusesValues_construct values _ hconstruct
        exact absurd hkind (by decide)
  · rw [hpresent] at h
    injection h with h
    injection h with h
    have hkind : ErrorKind.missingSetting = .config := congrArg Report.kind h
    exact absurd hkind (by decide)

/-! ## Given settings -/

theorem quote_not_mem_variableName : ∀ f ∈ fields, '\'' ∉ (f.variableName group).toList := by
  decide +kernel

/-- The report on the first variable that is refused. -/
theorem ofEnvironment_of_find? {environment : Environment} {f : SettingField}
    (h : fields.find? (isMisset group environment) = some f)
    (overrides : List (String × Value)) :
    ∃ text, Entries.get? (f.variableName group) environment = some text ∧
      ofEnvironment environment overrides =
        reject (misreading (f.variableName group) text) := by
  obtain ⟨text, htext, hread⟩ := SettingField.readAll_of_find? h
  refine ⟨text, htext, ?_⟩
  rw [ofEnvironment, readEnvironment, hread]
  rfl

/-- Where no variable is refused, the settings are built from what is read and what is given. -/
theorem ofEnvironment_of_find?_eq_none {environment : Environment}
    (h : fields.find? (isMisset group environment) = none)
    (overrides : List (String × Value)) : ofEnvironment environment overrides =
      build (Entries.override (fields.filterMap (reading? group environment)) overrides) := by
  rw [ofEnvironment, readEnvironment, SettingField.readAll_of_find?_eq_none h]
  rfl

theorem isKnown_of_mem_reading? {environment : Environment} :
    ∀ e ∈ fields.filterMap (reading? group environment), isKnown e.1 = true := by
  intro e he
  obtain ⟨f, hf, hname⟩ := SettingField.name_of_mem_filterMap_reading? he
  exact List.any_eq_true.2 ⟨f, hf, beq_iff_eq.2 hname⟩

/-- A variable that is refused and not withheld stays the first of its sort. -/
theorem find?_isMisset_withheld_of_not_mem {environment : Environment} {f : SettingField}
    {names : List String} (h : fields.find? (isMisset group environment) = some f)
    (hname : f.name ∉ names) :
    fields.find? (isMisset group (withheld names environment)) = some f := by
  rw [withheld, SettingField.find?_isMisset_withheld distinguishes_fields]
  rw [List.find?_eq_some_iff_append] at h ⊢
  obtain ⟨hmisset, before, after, hfields, hbefore⟩ := h
  refine ⟨by simp [hmisset, hname], before, after, hfields, fun g hg => ?_⟩
  rw [Bool.not_eq_true', (Bool.not_eq_true' _).mp (hbefore g hg), Bool.and_false]

/-- **The variables of given settings count exactly if one of them is the first that is refused.**
Then the settings are refused for its text; otherwise they are, or are refused, as in an environment
without the variables of the given settings. -/
theorem ofEnvironment_withheld_iff (environment : Environment) (overrides : List (String × Value)) :
    (ofEnvironment environment overrides =
        ofEnvironment (withheld (overrides.map (·.1)) environment) overrides ↔
      ∀ f, fields.find? (isMisset group environment) = some f → f.name ∉ overrides.map (·.1)) ∧
    ∀ f text, fields.find? (isMisset group environment) = some f →
      Entries.get? (f.variableName group) environment = some text →
      ofEnvironment environment overrides = reject (misreading (f.variableName group) text) := by
  have hfind := SettingField.find?_isMisset_withheld distinguishes_fields (overrides.map (·.1))
    environment
  constructor
  · cases hfirst : fields.find? (isMisset group environment) with
    | none =>
        -- nothing is refused with or without the variables, and given values win
        have hrest : fields.find?
            (isMisset group (withheld (overrides.map (·.1)) environment)) = none := by
          rw [List.find?_eq_none] at hfirst
          rw [withheld, hfind, List.find?_eq_none]
          intro f hf
          simp [hfirst f hf]
        refine iff_of_true ?_ (by simp)
        rw [ofEnvironment_of_find?_eq_none hfirst, ofEnvironment_of_find?_eq_none hrest, withheld,
          SettingField.filterMap_reading?_withheld distinguishes_fields,
          build_override_filter isKnown_of_mem_reading?]
    | some f =>
        obtain ⟨text, htext, hreject⟩ := ofEnvironment_of_find? hfirst overrides
        have hf := List.mem_of_find?_eq_some hfirst
        by_cases hname : f.name ∈ overrides.map (·.1)
        · refine iff_of_false (fun heq => ?_) fun h => h f rfl hname
          rw [hreject] at heq
          cases hother : fields.find?
              (isMisset group (withheld (overrides.map (·.1)) environment)) with
          | none =>
              rw [ofEnvironment_of_find?_eq_none hother] at heq
              exact build_ne_misreading _ _ _ heq.symm
          | some g =>
              -- another variable is refused then, and the report tells which
              obtain ⟨text', -, hreject'⟩ := ofEnvironment_of_find? hother overrides
              have hg := List.mem_of_find?_eq_some hother
              rw [hreject'] at heq
              injection heq with heq
              injection heq with heq
              have hkey := SettingField.misreading_inj (quote_not_mem_variableName f hf)
                (quote_not_mem_variableName g hg) heq
              rw [withheld, hfind] at hother
              have hapart := List.find?_some hother
              rw [← distinguishes_fields f hf g hg hkey] at hapart
              simp [hname] at hapart
        · refine iff_of_true ?_ ?_
          · obtain ⟨text', htext', hreject'⟩ := ofEnvironment_of_find?
              (find?_isMisset_withheld_of_not_mem hfirst hname) overrides
            rw [withheld, SettingField.get?_withheld distinguishes_fields hf,
              if_neg (by simpa using hname), htext] at htext'
            obtain rfl := Option.some.inj htext'
            rw [hreject, hreject']
          · rintro g hg
            obtain rfl := Option.some.inj hg
            exact hname
  · intro f text hfirst htext
    obtain ⟨text', htext', hreject⟩ := ofEnvironment_of_find? hfirst overrides
    obtain rfl := Option.some.inj (htext.symm.trans htext')
    exact hreject

/-- An environment whose size of pages is no number. -/
def mistyped : Environment :=
  [("LISTQUERY_CURSOR_SECRET", "0123456789abcdef"), ("LISTQUERY_MAX_PAGE_SIZE", "abc")]

/-- **A given size of pages does not win over a variable that is no number.** -/
theorem ofEnvironment_withheld_fails :
    ofEnvironment mistyped [("max_page_size", .int 50)] =
      reject (misreading "LISTQUERY_MAX_PAGE_SIZE" "abc") ∧
    ofEnvironment (withheld ["max_page_size"] mistyped) [("max_page_size", .int 50)] =
      .ok ⟨.text "0123456789abcdef", .int 20, .int 50, .int 2048⟩ := by
  have hfirst : fields.find? (isMisset group mistyped) =
      some ⟨"max_page_size", .integer, some (.int 100)⟩ := rfl
  obtain ⟨text, htext, hreject⟩ := ofEnvironment_of_find? hfirst [("max_page_size", .int 50)]
  obtain rfl : "abc" = text := Option.some.inj htext
  exact ⟨hreject, rfl⟩

end ServiceSettings

end Listing
