import Mathlib.Data.Bool.AllAny
import Listing.Filter.Token
import Listing.Predicate.Evaluate
import Listing.Predicate.Text
import Listing.Proofs.FaultKinds
import Listing.Proofs.NormalForm
import Listing.Proofs.TracedResult
import Listing.Report.Quoting
import Listing.Settings.Service

/-!
# Texts that can be written

Writing a value gives its text or stops by the one fault of an integer that is too long, and which of
the two depends on the value alone (`Value.displayed_eq_error_iff`, `Value.quotation_eq_error_iff`). A
predicate can be written if and only if each of its leaves can (`Predicate.isWritable_eq`); so it
makes no difference for the writing whether predicates are composed into normal form
(`Predicate.isWritable_normal`, `Predicate.isWritable_conjoin`).
-/

set_option autoImplicit false

namespace Listing

/-! ## Values -/

namespace Value

variable {v : Value} {s : String}

theorem displayed_of_isShowable (h : v.isShowable = true) : v.displayed = .ok v.display :=
  if_pos h

theorem quotation_eq_ok_iff : v.quotation = .ok s ↔ v.isQuotable = true ∧ v.quoted = s := by
  rw [quotation]
  split <;> simp [*]

theorem displayed_eq_error_iff {e : Fault} :
    v.displayed = .error e ↔ v.isShowable = false ∧ e = .longInteger := by
  rw [displayed]
  split <;> simp [*, eq_comm]

theorem quotation_eq_error_iff {e : Fault} :
    v.quotation = .error e ↔ v.isQuotable = false ∧ e = .longInteger := by
  rw [quotation]
  split <;> simp [*, eq_comm]

theorem failsPlainly_displayed (v : Value) : FailsPlainly v.displayed := by
  intro e h
  obtain ⟨-, rfl⟩ := displayed_eq_error_iff.1 h
  trivial

theorem failsPlainly_quotation (v : Value) : FailsPlainly v.quotation := by
  intro e h
  obtain ⟨-, rfl⟩ := quotation_eq_error_iff.1 h
  trivial

theorem displayedAll_of_isShowable {vs : List Value} (h : ∀ v ∈ vs, v.isShowable = true) :
    displayedAll vs = .ok (vs.map display) := by
  induction vs with
  | nil => rfl
  | cons v vs ih =>
      rw [displayedAll, displayed_of_isShowable (h v List.mem_cons_self),
        ih fun w hw => h w (List.mem_cons_of_mem v hw)]
      rfl

end Value

/-! ## Tokens -/

namespace Filter

/-- Items that can be written have their tokens one after another, and a missing item has none. -/
theorem tokensOfItems_of_isShowable {items : List Value}
    (h : ∀ v ∈ items, v.isShowable = true) :
    tokensOfItems items = .ok ((items.filter (!·.isNull)).flatMap (tokensOfText ·.display)) := by
  induction items with
  | nil => rfl
  | cons v items ih =>
      have hrest := ih fun w hw => h w (List.mem_cons_of_mem v hw)
      rw [tokensOfItems, hrest, Value.displayed_of_isShowable (h v List.mem_cons_self)]
      cases hnull : v.isNull <;> simp [hnull, bind, Except.bind, pure, Except.pure]

theorem tokensOfItems_texts (texts : List String) :
    tokensOfItems (texts.map .text) = .ok (texts.flatMap tokensOfText) := by
  have htexts : ∀ v ∈ texts.map Value.text, v.isShowable = true ∧ (!v.isNull) = true := by
    intro v hv
    obtain ⟨s, -, rfl⟩ := List.mem_map.1 hv
    exact ⟨rfl, rfl⟩
  rw [tokensOfItems_of_isShowable fun v hv => (htexts v hv).1,
    List.filter_eq_self.2 fun v hv => (htexts v hv).2, List.flatMap_map]
  rfl

end Filter

/-! ## Reports -/

theorem rejectWith_ne_ok {α : Type} (r : Result Report) (a : α) : rejectWith r ≠ .ok a := by
  cases r <;> exact nofun

/-- A rejection is a report, or the fault by which its words could not be written. -/
theorem rejectWith_eq_error_iff {α : Type} {r : Result Report} {e : Fault} :
    (rejectWith r : Result α) = .error e ↔ r = .error e ∨ ∃ found, r = .ok found ∧
      e = .reported found := by
  cases r <;> simp [rejectWith, reject, bind, Except.bind, eq_comm]

/-- A refused value of a setting is a fault; if that is a report, it is about the value. -/
theorem ServiceSettings.exists_refuse {α : Type} (name : String) (v : Value) (reason : String) :
    ∃ e, (refuse name v reason : Except SettingsFault α) = .error (.fault e) ∧
      ∀ r, e = .reported r → r.kind = .settingValue := by
  rw [refuse, rejectWith, Report.settingValue, Value.quotation]
  -- the name and the reason are texts, so only the value may not be written
  split
  · refine ⟨_, rfl, fun r h => ?_⟩
    exact Fault.reported.inj h ▸ rfl
  · refine ⟨_, rfl, fun r h => ?_⟩
    exact absurd h Fault.noConfusion

/-! ## Predicates -/

namespace Predicate

theorem areWritable_append (ps qs : List Predicate) :
    areWritable (ps ++ qs) = (areWritable ps && areWritable qs) := by
  induction ps with
  | nil => rfl
  | cons p ps ih => rw [List.cons_append, areWritable, areWritable, ih, Bool.and_assoc]

mutual

/-- **A predicate can be written if and only if each of its leaves can.** -/
theorem isWritable_eq : ∀ p : Predicate, p.isWritable = areWritable p.leaves := by
  intro p
  cases p with
  | always => rfl
  | all parts => rw [isWritable, leaves, areWritable_eq parts]
  | any parts => rw [isWritable, leaves, areWritable_eq parts]
  | _ => simp [leaves, areWritable]

theorem areWritable_eq : ∀ parts : List Predicate,
    areWritable parts = areWritable (leavesOf parts) := by
  intro parts
  cases parts with
  | nil => rfl
  | cons p rest =>
      rw [areWritable, leavesOf, areWritable_append, isWritable_eq p, areWritable_eq rest]

end

theorem isWritable_congr {p q : Predicate} (h : p.leaves = q.leaves) :
    p.isWritable = q.isWritable := by
  rw [isWritable_eq, isWritable_eq, h]

theorem isWritable_normal (p : Predicate) : p.normal.isWritable = p.isWritable :=
  isWritable_congr (leaves_normal p)

theorem isWritable_conjoin (parts : List Predicate) :
    (conjoin parts).isWritable = areWritable parts :=
  isWritable_normal (.all parts)

theorem isWritable_disjoin (parts : List Predicate) :
    (disjoin parts).isWritable = areWritable parts :=
  isWritable_normal (.any parts)

theorem areWritable_iff {parts : List Predicate} :
    areWritable parts = true ↔ ∀ p ∈ parts, p.isWritable = true := by
  induction parts with
  | nil => simp [areWritable]
  | cons p parts ih => rw [areWritable, Bool.and_eq_true, ih, List.forall_mem_cons]

variable {p : Predicate}

theorem written_of_isWritable (h : p.isWritable = true) : p.written = .ok p.text :=
  if_pos h

theorem written_of_not_isWritable (h : p.isWritable = false) : p.written = .error .longInteger := by
  rw [written, h, if_neg Bool.false_ne_true]

theorem written_eq_ok_iff {s : String} :
    p.written = .ok s ↔ p.isWritable = true ∧ p.text = s := by
  rw [written]
  split <;> simp [*]

theorem written_eq_error_iff {e : Fault} :
    p.written = .error e ↔ p.isWritable = false ∧ e = .longInteger := by
  rw [written]
  split <;> simp [*, eq_comm]

theorem failsPlainly_written (p : Predicate) : FailsPlainly p.written := by
  intro e h
  obtain ⟨-, rfl⟩ := written_eq_error_iff.1 h
  trivial

/-! ## Patterns -/

variable {v : Value} {pattern : String} {anyCase : Bool}

/-- A pattern describes a value by the text that is shown of it. -/
theorem describes_text (hnull : v ≠ .null) :
    describes v (.text pattern) anyCase = v.displayed.map (Wildcard.matchesAll anyCase pattern) := by
  cases v with
  | null => exact absurd rfl hnull
  | _ => rfl

/-- **A pattern fails on the values that cannot be written**, and on no others. -/
theorem describes_text_eq_error_iff {e : Fault} :
    describes v (.text pattern) anyCase = .error e ↔ v.isShowable = false ∧ e = .longInteger := by
  by_cases hnull : v = .null
  · subst hnull
    exact iff_of_false nofun fun h => absurd h.1 nofun
  · rw [describes_text hnull, ← Value.displayed_eq_error_iff]
    cases v.displayed <;> simp [Except.map]

end Predicate

end Listing
