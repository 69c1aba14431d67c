import Listing.Proofs.FilterEvaluation
import Listing.Proofs.NumberValues
import Listing.Proofs.WrittenFloats
import Listing.Proofs.WrittenTimes
import Listing.Proofs.WrittenUuids

/-!
# Filters for a value's own text

A filter may ask a field for the text that is shown of a value, to find the rows that hold the value.
It finds all of them or none, and which of the two is a matter of the value alone (`Value.IsTold`,
`Filter.own_text_finds`). Values are missed whose text reads as another value: a day, which is read as
a point in time; a floating-point number of which the shortest digits are near but not exact; a point
in time with an offset shorter than a second. Numbers with too many digits are refused.
-/

set_option autoImplicit false

namespace Listing

open Text

/-! ## Values that their texts tell -/

namespace Binary64

/-- The value of the digits that are written of a positive number, and zero. -/
def writtenMagnitude (m : Nat) (e : Int) : ℚ :=
  if m = 0 then 0 else Number.magnitude (shortest m e).1 (shortest m e).2

/-- The digits that are written have the value of the number, not only one that is near to it. -/
def IsExact : Binary64 → Prop
  | finite _ m e => writtenMagnitude m e = m * 2 ^ e
  | _ => False

/-- The text of a magnitude stands for the digits that are written, within the range of decimals. -/
theorem exists_readMagnitude_chars {negative : Bool} {m : Nat} {e : Int}
    (h : (finite negative m e).IsInFormat) : ∃ c p,
    Decimal.readMagnitude (magnitudeChars m e) = some (c, p) ∧
      (Decimal.finite negative c p).IsInRange ∧ Number.magnitude c p = writtenMagnitude m e := by
  by_cases hm : m = 0
  · subst hm
    refine ⟨0, -1, rfl, ?_, ?_⟩
    · rw [Decimal.IsInRange, Decimal.width, digits_zero]
      decide
    · rw [Number.magnitude_zero, writtenMagnitude, if_pos rfl]
  · obtain ⟨k, hk, hread⟩ := readMagnitude_chars hm e
    obtain ⟨hm', hleast, he⟩ := h
    obtain ⟨hc, hp⟩ := shortest_bounds hm' hleast he
    have hwidth := Decimal.width_shift_le (shortest m e).1 k
    refine ⟨_, _, hread, ?_, ?_⟩
    · simp only [Decimal.IsInRange, Decimal.topExponent, Decimal.bottomExponent]
      omega
    · rw [Number.magnitude_shift, writtenMagnitude, if_neg hm, Int.sub_add_cancel]

/-- **The text of a number is read as a decimal** with the value of the digits that are written. -/
theorem exists_readChars {negative : Bool} {m : Nat} {e : Int}
    (h : (finite negative m e).IsInFormat) : ∃ c p,
    Decimal.readChars (finite negative m e).chars = some (.finite negative c p) ∧
      Number.magnitude c p = writtenMagnitude m e := by
  obtain ⟨c, p, hread, hrange, hvalue⟩ := exists_readMagnitude_chars h
  obtain ⟨d, rest, hrest, hplain⟩ := magnitudeChars_eq_cons m e
  have hkept := isKept_chars (finite negative m e)
  rw [hrest] at hread
  rw [chars, hrest] at hkept ⊢
  exact ⟨c, p, Decimal.readChars_signed hkept hplain hread hrange, hvalue⟩

end Binary64

namespace Value

/-- The text that is shown of the value reads as the value again. -/
def IsTold : Value → Prop
  | int i => Decimal.width i.natAbs ≤ digitLimit
  | float x => x.IsExact
  | decimal (.finite _ c e) => e = 0 → Decimal.width c ≤ digitLimit
  | decimal _ => False
  | instant t => t.settled = t
  | day _ => False
  | _ => True

/-- The value is in the range of its format. -/
def IsProper : Value → Prop
  | float x => x.IsInFormat
  | decimal d => d.IsInRange
  | instant t => t.isValid = true
  | _ => True

/-! ## Equality by value -/

theorem isSignaling_of_value? {x : Number} {q : ℚ} (h : x.value? = some q) :
    x.isSignaling = false := by
  cases x with
  | decimal d =>
      cases d with
      | nan => exact absurd h (by simp [Number.value?])
      | _ => rfl
  | _ => rfl

/-- Numbers are equal if their values are. -/
theorem equal_of_value? {v w : Value} {x y : Number} {q r : ℚ} (hx : v.number? = some x)
    (hy : w.number? = some y) (hq : x.value? = some q) (hr : y.value? = some r) :
    v.equal w = .ok (decide (q = r)) := by
  have hquiet : x.equalitySignals y = false := by
    rw [Number.equalitySignals, isSignaling_of_value? hq, isSignaling_of_value? hr]
    rfl
  have heq : (some (compare q r) == some .eq) = decide (q = r) := by
    rw [Bool.eq_iff_iff, beq_iff_eq, Option.some.injEq, compare_eq_iff_eq, decide_eq_true_iff]
  rw [equal_of_number hx hy, hquiet, Number.compare?_of_value? hq hr, heq]
  rfl

theorem equal_text (s : String) : equal (text s) (text s) = .ok true := by
  simp only [equal, equalScalars, number?, beq_self_eq_true]

theorem equal_bool (b : Bool) : equal (bool b) (bool b) = .ok true :=
  (equal_of_value? rfl rfl rfl rfl).trans (by rw [decide_eq_true rfl])

theorem equal_uuid (u : Uuid) : equal (uuid u) (uuid u) = .ok true := by
  simp only [equal, equalScalars, number?, beq_self_eq_true]

/-- A day is no point in time. -/
theorem equal_day_instant (d : Date) (t : Instant) : equal (day d) (instant t) = .ok false := by
  simp only [equal, equalScalars, number?]

theorem equal_instant (t t' : Instant) :
    equal (instant t) (instant t') = .ok (t.compare? t' == some .eq) := by
  simp only [equal, equalScalars, number?]

end Value

/-- A point in time is the same as its settled one if it is settled. -/
theorem Instant.compare?_settled_iff {t : Instant} :
    t.compare? t.settled = some .eq ↔ t.settled = t := by
  obtain ⟨date, hour, minute, second, microsecond, offset⟩ := t
  cases offset with
  | none => simp [compare?, settled, shown]
  | some o =>
      simp only [settled, Option.map_some, compare?, shown, Option.some.injEq, compare_eq_iff_eq,
        Instant.mk.injEq, true_and]
      omega

namespace Kind

variable {choices : List String}

/-- What a kind makes of the text that is shown of a value: it reads a value that the given one equals
if it is told, or it refuses the text of a value that is not told. -/
inductive Answers (k : Kind) (choices : List String) (v : Value) : Prop
  | read {w : Value} {b : Bool} (hread : k.coerce choices (.text v.display) = .ok w)
    (hequal : v.equal w = .ok b) (htold : b = true ↔ v.IsTold) : Answers k choices v
  | refused {why : Unfit} (hread : k.coerce choices (.text v.display) = .error why)
    (htold : ¬v.IsTold) : Answers k choices v

/-- A text that is of the kind is told. -/
theorem answers_text {k : Kind} {s : String} (h : k.accepts choices (.text s) = true) :
    k.Answers choices (.text s) :=
  .read (by rw [Value.display, coerce_text, if_pos h]) (Value.equal_text s) (iff_of_true rfl trivial)

/-! ## Numbers -/

/-- A text that is not of the kind is read. -/
theorem coerce_of_accepts_eq_false {k : Kind} {s : String}
    (h : k.accepts choices (.text s) = false) : k.coerce choices (.text s) = k.read choices s := by
  rw [coerce_text, h]
  rfl

theorem coerce_number {cs : List Char} (h : ∀ c ∈ cs, isBlank c = false) :
    number.coerce choices (.text (String.ofList cs)) = readNumber cs := by
  rw [coerce_of_accepts_eq_false rfl, Kind.read, String.toList_ofList, trimChars_of_isBlank h]

theorem readNumber_signed (negative : Bool) (n : Nat) :
    readNumber (Decimal.signChars negative ++ digits n) =
      if Decimal.width n > digitLimit then .error (.longNumber (Decimal.width n))
      else .ok (.int (if negative then -n else n)) := by
  rw [readNumber, readInteger_signed]
  by_cases h : Decimal.width n > digitLimit
  · rw [if_pos h, if_pos h]
  · rw [if_neg h, if_neg h]

theorem readNumber_of_malformed {cs : List Char} {d : Decimal} (h : readInteger cs = .malformed)
    (hd : Decimal.readChars cs = some d) :
    readNumber cs = if d.isFinite then .ok (.decimal d) else .error .finiteNumber := by
  rw [readNumber, h]
  simp only [hd]

theorem isBlank_signed (negative : Bool) (n : Nat) :
    ∀ c ∈ Decimal.signChars negative ++ digits n, isBlank c = false := by
  intro c hc
  rcases List.mem_append.1 hc with hc | hc
  · cases negative
    · exact absurd hc List.not_mem_nil
    · rw [List.mem_singleton.1 hc]
      rfl
  · exact isBlank_of_isPlainDigit (isPlainDigit_of_mem_digits n c hc)

/-- A value whose text is a sign and digits. -/
theorem answers_signed {v : Value} {x : Number} (negative : Bool) (n : Nat)
    (hx : v.number? = some x) (hvalue : x.value? = some (if negative then -(n : ℚ) else n))
    (hdisplay : v.display = String.ofList (Decimal.signChars negative ++ digits n))
    (htold : v.IsTold ↔ Decimal.width n ≤ digitLimit) : number.Answers choices v := by
  have hread : number.coerce choices _ = _ := coerce_number (isBlank_signed negative n)
  rw [← hdisplay, readNumber_signed] at hread
  by_cases hwidth : Decimal.width n ≤ digitLimit
  · rw [if_neg (Nat.not_lt.2 hwidth)] at hread
    have hint : (Number.int (if negative then -n else n)).value? =
        some (if negative then -(n : ℚ) else n) := by
      cases negative <;> simp [Number.value?]
    refine .read hread (Value.equal_of_value? hx rfl hvalue hint) ?_
    exact iff_of_true (decide_eq_true rfl) (htold.2 hwidth)
  · rw [if_pos (Nat.not_le.1 hwidth)] at hread
    exact .refused hread (mt htold.1 hwidth)

theorem answers_int (i : Int) : number.Answers choices (.int i) := by
  have hvalue := Number.signed_natAbs i
  rw [Number.signed, Number.magnitude_whole] at hvalue
  refine answers_signed (decide (i < 0)) i.natAbs rfl (congrArg some hvalue.symm) ?_ Iff.rfl
  rw [← integerChars_eq]
  rfl

theorem answers_decimal {d : Decimal} (h : d.IsInRange) : number.Answers choices (.decimal d) := by
  by_cases hplain : ∃ negative c, d = .finite negative c 0
  -- without a scale, the text is read as an integer
  · obtain ⟨negative, c, rfl⟩ := hplain
    refine answers_signed negative c rfl ?_ ?_ (forall_prop_of_true rfl)
    · rw [Number.value?, Number.signed, Number.magnitude_whole]
    · rw [← Decimal.magnitudeChars_zero]
      rfl
  · have hmalformed : readInteger d.chars = .malformed :=
      Decimal.readInteger_chars fun negative c heq => hplain ⟨negative, c, heq⟩
    have hread : number.coerce choices (.text (Value.decimal d).display) = _ :=
      (coerce_number fun c hc => (Decimal.isKept_chars d c hc).1).trans
        (readNumber_of_malformed hmalformed (Decimal.readChars_chars h))
    cases d with
    | finite negative c e =>
        refine .read hread (Value.equal_of_value? rfl rfl rfl rfl) ?_
        exact iff_of_true (decide_eq_true rfl) fun he => absurd ⟨negative, c, he ▸ rfl⟩ hplain
    | infinite negative => exact .refused hread not_false
    | nan negative signaling payload => exact .refused hread not_false

/-- The text of a floating-point number is read as a decimal. -/
theorem coerce_float {x : Binary64} {d : Decimal} (hd : Decimal.readChars x.chars = some d) :
    number.coerce choices (.text (Value.float x).display) =
      if d.isFinite then .ok (.decimal d) else .error .finiteNumber :=
  (coerce_number fun c hc => (Binary64.isKept_chars x c hc).1).trans
    (readNumber_of_malformed (Binary64.readInteger_chars x) hd)

theorem answers_float {x : Binary64} (h : x.IsInFormat) : number.Answers choices (.float x) := by
  cases x with
  | nan => exact .refused (coerce_float (d := .nan false false 0) rfl) not_false
  | infinite negative =>
      have hchars : Decimal.readChars (Binary64.infinite negative).chars =
          some (.infinite negative) := by
        cases negative <;> rfl
      exact .refused (coerce_float hchars) not_false
  | finite negative m e =>
      obtain ⟨c, p, hchars, hvalue⟩ := Binary64.exists_readChars h
      refine .read (coerce_float hchars) (Value.equal_of_value? rfl rfl rfl rfl) ?_
      rw [decide_eq_true_iff, Number.signed, hvalue]
      cases negative
      · exact eq_comm
      · exact neg_inj.trans eq_comm

/-! ## Dates -/

theorem replaceChar_of_not_mem {old : Char} {new cs : List Char} (h : old ∉ cs) :
    replaceChar old new cs = cs := by
  induction cs with
  | nil => rfl
  | cons c cs ih =>
      rw [List.mem_cons, not_or] at h
      rw [replaceChar, List.flatMap_cons, if_neg (by simpa using Ne.symm h.1)]
      exact congrArg (c :: ·) (ih h.2)

theorem answers_instant {t : Instant} (h : t.isValid = true) :
    date.Answers choices (.instant t) := by
  have hread : date.coerce choices (.text (Value.instant t).display) = .ok (.instant t.settled) := by
    rw [Value.display, coerce_of_accepts_eq_false rfl, Kind.read]
    simp only [Instant.text, String.toList_ofList, Instant.trimChars_charsWith]
    rw [readDate, replaceChar_of_not_mem (Instant.not_mem_charsWith (by decide) t),
      Iso.readInstantChars_charsWith ' ' h]
  refine .read hread (Value.equal_instant t t.settled) ?_
  exact beq_iff_eq.trans Instant.compare?_settled_iff

/-- A day is not told, whatever is read from its text. -/
theorem answers_day (d : Date) : date.Answers choices (.day d) := by
  cases hread : date.coerce choices (.text (Value.day d).display) with
  | error why => exact .refused hread not_false
  | ok w =>
      have hinstant := reads_of_coerce hread
      cases w with
      | instant t =>
          exact .read hread (Value.equal_day_instant d t) (iff_of_false Bool.false_ne_true not_false)
      | _ => exact absurd hinstant not_false

/-! ## Truth values and identifiers -/

theorem answers_bool (b : Bool) : boolean.Answers choices (.bool b) := by
  have hword : lower (String.ofList (trimChars (if b then "True" else "False").toList)) =
      if b then "true" else "false" := by
    cases b <;> decide +kernel
  have hdisplay : (Value.bool b).display = if b then "True" else "False" := by
    cases b <;> rfl
  have hread : boolean.coerce choices (.text (Value.bool b).display) = .ok (.bool b) := by
    rw [hdisplay, coerce_of_accepts_eq_false rfl, Kind.read]
    simp only [readBoolean, hword]
    cases b <;> rfl
  exact .read hread (Value.equal_bool b) (iff_of_true rfl trivial)

theorem answers_uuid (u : Uuid) : uuid.Answers choices (.uuid u) := by
  have hkept : ∀ c ∈ u.chars, isBlank c = false := by
    intro c hc
    rcases Uuid.mem_chars hc with ⟨n, hn, rfl⟩ | rfl
    · exact (Uuid.hexDigit?_digitChar_eq n hn).2.1
    · rfl
  have hread : uuid.coerce choices (.text (Value.uuid u).display) = .ok (.uuid u) := by
    rw [Value.display, coerce_of_accepts_eq_false rfl, Kind.read]
    simp only [Uuid.text, String.toList_ofList, trimChars_of_isBlank hkept, Uuid.readChars_chars]
  exact .read hread (Value.equal_uuid u) (iff_of_true rfl trivial)

/-! ## All kinds -/

/-- **A kind reads from the text of a value that it accepts** one that the value equals if it is told,
and otherwise one that it does not equal, if any. -/
theorem answers_of_accepts {k : Kind} {v : Value} (haccepts : k.accepts choices v = true)
    (hplain : v.unwrapped = v) (hproper : v.IsProper) : k.Answers choices v := by
  cases k with
  | text =>
      cases v with
      | text s => exact answers_text haccepts
      | _ => exact absurd haccepts Bool.false_ne_true
  | number =>
      cases v with
      | int i => exact answers_int i
      | float x => exact answers_float hproper
      | decimal d => exact answers_decimal hproper
      | _ => exact absurd haccepts Bool.false_ne_true
  | date =>
      cases v with
      | instant t => exact answers_instant hproper
      | day d => exact answers_day d
      | _ => exact absurd haccepts Bool.false_ne_true
  | choice =>
      have hchoice := haccepts
      simp only [accepts, hplain] at hchoice
      cases v with
      | text s => exact answers_text haccepts
      | _ => exact absurd hchoice Bool.false_ne_true
  | boolean =>
      cases v with
      | bool b => exact answers_bool b
      | _ => exact absurd haccepts Bool.false_ne_true
  | uuid =>
      cases v with
      | uuid u => exact answers_uuid u
      | _ => exact absurd haccepts Bool.false_ne_true

end Kind

/-! ## The filter -/

namespace Filter

variable {s : Schema} {name : String} {f : Field}

/-- A single term of equality is compiled to the equality with what the field reads from its text. -/
theorem compileClauses_equal_eq_ok_iff {raw : String} {junction : Junction} {p : Predicate}
    (hf : s.get? name = some f) (hallows : f.allows .equal = true) :
    (compileClauses s [⟨name, [(.equal, .text raw)], junction⟩]).result = .ok p ↔
      ∃ w, f.coerce (.text raw) = .ok w ∧ p = .equal name w := by
  have htext : ∀ c ∈ [(⟨name, [(.equal, .text raw)], junction⟩ : Clause)], c.IsText := by
    simp [Clause.IsText]
  rw [result_compileClauses_of_isText htext]
  simp only [predicate, clausePredicates, clausePredicate, hf, leaves, leaf, hallows, Bool.not_true,
    Bool.false_eq_true, if_false]
  cases hread : s.coerce name (.text raw) with
  | error e =>
      refine iff_of_false (by simp [Result.error_bind]) ?_
      rintro ⟨w, hw, -⟩
      rw [(Schema.coerce_eq_ok_iff hf).2 hw] at hread
      exact absurd hread (by simp)
  | ok v =>
      -- one leaf is left of the groups, whatever the junction
      have hsingle : ∀ r : Result Predicate, r = .ok (.equal name v) →
          (r = .ok p ↔ ∃ w, f.coerce (.text raw) = .ok w ∧ p = .equal name w) := by
        rintro r rfl
        have hv := (Schema.coerce_eq_ok_iff hf).1 hread
        constructor
        · intro h
          exact ⟨v, hv, (Except.ok.inj h).symm⟩
        · rintro ⟨w, hw, rfl⟩
          rw [Except.ok.inj (hv.symm.trans hw)]
      apply hsingle
      cases junction <;> rfl

/-- **Filtering for a value's own text** finds all the rows that hold the value if it is told by its
text, and none of them otherwise. The value is one that the field accepts and in the range of its
format. -/
theorem own_text_finds {v : Value} (junction : Junction) (hf : s.get? name = some f)
    (hallows : f.allows .equal = true) (haccepts : f.accepts v = true) (hplain : v.unwrapped = v)
    (hproper : v.IsProper) :
    (v.IsTold → ∃ p,
      (compileClauses s [⟨name, [(.equal, .text v.display)], junction⟩]).result = .ok p ∧
        ∀ row : Value, row.field? name = some v → p.holds row = .ok true) ∧
    (¬v.IsTold → ∀ p,
      (compileClauses s [⟨name, [(.equal, .text v.display)], junction⟩]).result = .ok p →
        ∀ row : Value, row.field? name = some v → p.holds row = .ok false) := by
  have hholds : ∀ {row w : Value}, row.field? name = some v →
      (Predicate.equal name w).holds row = v.equal w := by
    intro row w hrow
    rw [Predicate.holds, Value.fieldOrNull, hrow]
    rfl
  cases Kind.answers_of_accepts haccepts hplain hproper with
  | read hread hequal htold =>
      constructor
      · intro hv
        refine ⟨_, (compileClauses_equal_eq_ok_iff hf hallows).2 ⟨_, hread, rfl⟩, ?_⟩
        intro row hrow
        rw [hholds hrow, hequal, htold.2 hv]
      · intro hv p hp row hrow
        obtain ⟨w, hw, rfl⟩ := (compileClauses_equal_eq_ok_iff hf hallows).1 hp
        obtain rfl := Except.ok.inj (hread.symm.trans hw)
        rw [hholds hrow, hequal, Bool.eq_false_iff.2 (mt htold.1 hv)]
  | refused hread htold =>
      refine ⟨fun hv => absurd hv htold, ?_⟩
      intro _ p hp
      obtain ⟨w, hw, -⟩ := (compileClauses_equal_eq_ok_iff hf hallows).1 hp
      exact absurd (hread.symm.trans hw) (by simp)

end Filter

/-! ## Numbers and days of a calendar -/

namespace Binary64

/-- One half. -/
def half : Binary64 :=
  .finite false 4503599627370496 (-53)

/-- The number nearest to one tenth. -/
def tenth : Binary64 :=
  .finite false 7205759403792794 (-56)

theorem shortest_half : shortest 4503599627370496 (-53) = (5, -1) := by
  decide +kernel

theorem shortest_tenth : shortest 7205759403792794 (-56) = (1, -1) := by
  decide +kernel

theorem readChars_tenth : Decimal.readChars tenth.chars = some (.finite false 1 (-1)) := by
  decide +kernel

theorem isExact_half : half.IsExact := by
  rw [half, IsExact, writtenMagnitude, if_neg (by decide), shortest_half, Number.magnitude]
  norm_num

theorem not_isExact_tenth : ¬tenth.IsExact := by
  rw [tenth, IsExact, writtenMagnitude, if_neg (by decide), shortest_tenth, Number.magnitude]
  norm_num

end Binary64

namespace Filter

/-- The clause that asks a calendar for the own text of a value. -/
def ownClause (name : String) (v : Value) : Clause :=
  ⟨name, [(.equal, .text v.display)], .conjunction⟩

/-- Entries with the number one half are found by its text, and none with the number nearest to one
tenth, since the filter asks for one tenth. -/
theorem own_text_finds_calendar :
    (Value.float .half).IsTold ∧ ¬(Value.float .tenth).IsTold ∧
    (∃ p, (compileClauses Calendar.schema [ownClause "id" (.float .half)]).result = .ok p ∧
      ∀ row : Value, row.field? "id" = some (.float .half) → p.holds row = .ok true) ∧
    ∃ p, (compileClauses Calendar.schema [ownClause "id" (.float .tenth)]).result = .ok p ∧
      ∀ row : Value, row.field? "id" = some (.float .tenth) → p.holds row = .ok false := by
  refine ⟨Binary64.isExact_half, Binary64.not_isExact_tenth, ?_, ?_⟩
  · refine (own_text_finds (s := Calendar.schema) .conjunction rfl rfl rfl rfl ?_).1
      Binary64.isExact_half
    exact ⟨by decide, by decide, by decide⟩
  · have hcompiled : (compileClauses Calendar.schema [ownClause "id" (.float .tenth)]).result =
        .ok (.equal "id" (.decimal (.finite false 1 (-1)))) := by
      refine (compileClauses_equal_eq_ok_iff rfl rfl).2 ⟨_, ?_, rfl⟩
      exact Kind.coerce_float Binary64.readChars_tenth
    refine ⟨_, hcompiled, ?_⟩
    refine (own_text_finds (v := .float .tenth) .conjunction rfl rfl rfl rfl ?_).2
      Binary64.not_isExact_tenth _ hcompiled
    exact ⟨by decide, by decide, by decide⟩

/-- An entry on a day, which the date field accepts, is not found by the text of the day. -/
theorem own_text_misses :
    Calendar.schema.contradiction? = none ∧
    (∃ f, Calendar.schema.get? "at" = some f ∧ f.allows .equal = true ∧
      f.accepts (.day Calendar.morning.date) = true) ∧
    ∃ p, (compileClauses Calendar.schema
        [ownClause "at" (.day Calendar.morning.date)]).result = .ok p ∧
      (Calendar.entry (.day Calendar.morning.date)).field? "at" =
        some (.day Calendar.morning.date) ∧
      p.holds (Calendar.entry (.day Calendar.morning.date)) = .ok false := by
  refine ⟨by cbv, ⟨_, rfl, rfl, rfl⟩,
    .equal "at" (.instant ⟨Calendar.morning.date, 0, 0, 0, 0, none⟩), by cbv, by cbv, by cbv⟩

end Filter

end Listing
