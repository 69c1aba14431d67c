import Mathlib.Algebra.Group.Nat.Defs
import Mathlib.Data.List.Basic
import Mathlib.Data.List.TakeWhile
import Listing.Proofs.WrittenIntegers
import Listing.Time.Iso

/-!
# Dates and points in time that are read back

The standard text of a date reads as the date (`Iso.readDate?_text`), and the standard text of a point
in time as the point in time with one exception: an offset shorter than a second is written out to
the microsecond and read as universal time (`Iso.readInstantChars_charsWith`).
-/

set_option autoImplicit false

namespace Listing

open Text

/-! ## Fields of fixed width -/

namespace Text

theorem length_paddedDigits (width n : Nat) : (paddedDigits width n).length = width := by
  induction width generalizing n with
  | zero => rfl
  | succ width ih => rw [paddedDigits, List.length_append, ih, List.length_singleton]

theorem isPlainDigit_of_mem_paddedDigits (width n : Nat) :
    ∀ c ∈ paddedDigits width n, isPlainDigit c = true := by
  induction width generalizing n with
  | zero =>
      intro c hc
      exact absurd hc List.not_mem_nil
  | succ width ih =>
      intro c hc
      rcases List.mem_append.1 hc with hc | hc
      · exact ih (n / 10) c hc
      · rw [List.mem_singleton.1 hc]
        exact isPlainDigit_digitChar (n % 10) (Nat.mod_lt n (by omega))

/-- The last digits of a number have its remainder for their value. -/
theorem ofDigits_map_plainValue_paddedDigits (width n : Nat) :
    ofDigits 10 ((paddedDigits width n).map plainValue) = n % 10 ^ width := by
  induction width generalizing n with
  | zero => rw [Nat.pow_zero, Nat.mod_one]; rfl
  | succ width ih =>
      rw [paddedDigits, List.map_append, List.map_singleton, ofDigits_append, ih,
        plainValue_digitChar (n % 10) (Nat.mod_lt n (by omega)), Nat.pow_succ,
        Nat.mul_comm (10 ^ width) 10, Nat.mod_mul]
      omega

end Text

namespace Iso

/-- A field of fixed width is read back, whatever follows it. -/
theorem takeNumber_paddedDigits {width n : Nat} (h : n < 10 ^ width) (rest : List Char) :
    takeNumber width (paddedDigits width n ++ rest) = some (n, rest) := by
  have htake : (paddedDigits width n ++ rest).take width = paddedDigits width n :=
    List.take_left' (length_paddedDigits width n)
  have hdrop : (paddedDigits width n ++ rest).drop width = rest :=
    List.drop_left' (length_paddedDigits width n)
  have hvalue := ofDigits_map_plainValue_paddedDigits width n
  rw [Nat.mod_eq_of_lt h] at hvalue
  rw [takeNumber, htake, hdrop]
  simp only [length_paddedDigits, List.all_eq_true.2 (isPlainDigit_of_mem_paddedDigits width n),
    and_self, if_true]
  exact congrArg (fun k => some (k, rest)) hvalue

/-- A field that ends the text. -/
theorem takeNumber_paddedDigits_end {width n : Nat} (h : n < 10 ^ width) :
    takeNumber width (paddedDigits width n) = some (n, []) := by
  have h := takeNumber_paddedDigits h []
  rwa [List.append_nil] at h

end Iso

/-! ## Dates -/

theorem Date.bounds {d : Date} (h : d.isValid = true) :
    d.year < 10 ^ 4 ∧ d.month < 10 ^ 2 ∧ d.day < 10 ^ 2 := by
  obtain ⟨-, hyear, -, hmonth, -, hday⟩ := of_decide_eq_true h
  have hlength : monthLength d.year d.month ≤ 31 := by
    unfold monthLength
    split
    · split <;> omega
    all_goals omega
  omega

theorem Date.length_chars (d : Date) : d.chars.length = 10 := by
  simp [chars, length_paddedDigits]

namespace Iso

/-- A month in front of other characters does not start with the letter of a week date. -/
theorem readDateChars_dashed {year month : Nat} (hyear : year < 10 ^ 4) (hmonth : month < 10 ^ 2)
    {rest : List Char} {day : Nat} (hrest : takeNumber 2 rest = some (day, [])) :
    readDateChars (paddedDigits 4 year ++ '-' :: paddedDigits 2 month ++ '-' :: rest) =
      Date.make? year month day := by
  -- a month starts with a digit
  have hletter : ∀ more : List Char, paddedDigits 2 month ++ '-' :: rest ≠ 'W' :: more := by
    intro more heq
    have hplain := isPlainDigit_digitChar (month / 10 % 10) (Nat.mod_lt _ (by omega))
    rw [show digitChar (month / 10 % 10) = 'W' from (List.cons.inj heq).1] at hplain
    exact absurd hplain (by decide)
  rw [readDateChars, List.append_assoc, List.cons_append, takeNumber_paddedDigits hyear]
  simp only [Option.bind_eq_bind, Option.bind_some, takeNumber_paddedDigits hmonth, hrest,
    List.isEmpty_nil, if_true]

theorem readDateChars_chars {d : Date} (h : d.isValid = true) :
    readDateChars d.chars = some d := by
  obtain ⟨hyear, hmonth, hday⟩ := Date.bounds h
  rw [Date.chars, readDateChars_dashed hyear hmonth (takeNumber_paddedDigits_end hday), Date.make?]
  exact if_pos h

/-- **A date is read back from its text.** -/
theorem readDate?_text {d : Date} (h : d.isValid = true) : readDate? d.text = some d := by
  rw [readDate?, Date.text, String.toList_ofList]
  simp only [d.length_chars, or_true, if_true]
  exact readDateChars_chars h

/-! ## Times of day -/

/-- Colons stand between the fields read so far, or this is the first field. -/
theorem readFields_colon {colons : Bool} {fields : List Nat} {left n : Nat} (hn : n < 10 ^ 2)
    (hcolons : left = 2 ∨ colons = true) {rest : List Char} (hrest : rest ≠ []) :
    readFields colons fields (left + 1) (paddedDigits 2 n ++ ':' :: rest) =
      readFields true (fields ++ [n]) left rest := by
  have hmark : (if left = 2 then true else colons) = true := by
    rcases hcolons with h | h
    · rw [if_pos h]
    · rw [h, ite_self]
  rw [readFields, takeNumber_paddedDigits hn]
  cases rest with
  | nil => exact absurd rfl hrest
  | cons c rest =>
      simp only [Option.bind_eq_bind, Option.bind_some, beq_self_eq_true, hmark, Bool.and_self,
        if_true]

theorem readFields_end {colons : Bool} {fields : List Nat} {left n : Nat} (hn : n < 10 ^ 2) :
    readFields colons fields (left + 1) (paddedDigits 2 n) = some (fields ++ [n], 0, true) := by
  rw [readFields, takeNumber_paddedDigits_end hn]
  rfl

theorem readFields_fraction {colons : Bool} {fields : List Nat} {left n m : Nat} (hn : n < 10 ^ 2)
    (hm : m < 10 ^ 6) :
    readFields colons fields (left + 1) (paddedDigits 2 n ++ '.' :: paddedDigits 6 m) =
      some (fields ++ [n], m, true) := by
  have hfraction : readFraction (paddedDigits 6 m) = some (m, true) := by
    have htake : (paddedDigits 6 m).take 6 = paddedDigits 6 m :=
      List.take_of_length_le (Nat.le_of_eq (length_paddedDigits 6 m))
    have hdrop : (paddedDigits 6 m).drop 6 = [] :=
      List.drop_of_length_le (Nat.le_of_eq (length_paddedDigits 6 m))
    rw [readFraction, htake, hdrop, length_paddedDigits, takeNumber_paddedDigits_end hm]
    simp
  -- a point is no colon, whatever the field
  have hmark : ((if left = 2 then ('.' == ':') else colons) && '.' == ':') = false :=
    Bool.and_false _
  rw [readFields, takeNumber_paddedDigits hn]
  have hrest : paddedDigits 6 m ≠ [] := by
    rw [← List.length_pos_iff, length_paddedDigits]
    decide
  cases hd : paddedDigits 6 m with
  | nil => exact absurd hd hrest
  | cons c rest =>
      rw [hd] at hfraction
      simp only [Option.bind_eq_bind, Option.bind_some, hmark, Bool.false_eq_true, if_false,
        beq_self_eq_true, Bool.true_or, if_true, readFields, hfraction]
      rfl

theorem readClock_minute {h m : Nat} (hh : h < 10 ^ 2) (hm : m < 10 ^ 2) :
    readClock (paddedDigits 2 h ++ ':' :: paddedDigits 2 m) = some (⟨h, m, 0, 0⟩, true) := by
  rw [readClock, readFields_colon hh (Or.inl rfl) (by simp [paddedDigits]), readFields_end hm]
  rfl

theorem readClock_second {h m s : Nat} (hh : h < 10 ^ 2) (hm : m < 10 ^ 2) (hs : s < 10 ^ 2) :
    readClock (paddedDigits 2 h ++ ':' :: (paddedDigits 2 m ++ ':' :: paddedDigits 2 s)) =
      some (⟨h, m, s, 0⟩, true) := by
  rw [readClock, readFields_colon hh (Or.inl rfl) (by simp), readFields_colon hm (Or.inr rfl)
    (by simp [paddedDigits]), readFields_end hs]
  rfl

theorem readClock_fraction {h m s f : Nat} (hh : h < 10 ^ 2) (hm : m < 10 ^ 2) (hs : s < 10 ^ 2)
    (hf : f < 10 ^ 6) :
    readClock (paddedDigits 2 h ++ ':' :: (paddedDigits 2 m ++ ':' :: (paddedDigits 2 s ++
      '.' :: paddedDigits 6 f))) = some (⟨h, m, s, f⟩, true) := by
  rw [readClock, readFields_colon hh (Or.inl rfl) (by simp), readFields_colon hm (Or.inr rfl)
    (by simp), readFields_fraction hs hf]
  rfl

end Iso

/-! ## Points in time -/

namespace Instant

/-- An offset, or none where it is shorter than a second. -/
def settledOffset (o : Int) : Int :=
  if o.natAbs < 1000000 then 0 else o

/-- The point in time with an offset shorter than a second taken for none. -/
def settled (t : Instant) : Instant :=
  { t with offset := t.offset.map settledOffset }

theorem bounds {t : Instant} (h : t.isValid = true) :
    t.date.isValid = true ∧ t.hour < 24 ∧ t.minute < 60 ∧ t.second < 60 ∧
      t.microsecond < 1000000 ∧ ∀ o, t.offset = some o → -dayLength < o ∧ o < dayLength := by
  rw [isValid, Bool.and_eq_true, Bool.and_eq_true] at h
  obtain ⟨⟨hdate, hclock⟩, hoffset⟩ := h
  obtain ⟨hhour, hminute, hsecond, hmicrosecond⟩ := of_decide_eq_true hclock
  refine ⟨hdate, hhour, hminute, hsecond, hmicrosecond, ?_⟩
  intro o ho
  rw [ho] at hoffset
  exact of_decide_eq_true hoffset

theorem isValid_settled {t : Instant} (h : t.isValid = true) : t.settled.isValid = true := by
  obtain ⟨hdate, hhour, hminute, hsecond, hmicrosecond, hoffset⟩ := bounds h
  rw [isValid, Bool.and_eq_true, Bool.and_eq_true]
  refine ⟨⟨hdate, decide_eq_true ⟨hhour, hminute, hsecond, hmicrosecond⟩⟩, ?_⟩
  cases ho : t.offset with
  | none => simp only [settled, ho, Option.map_none]
  | some o =>
      have ho' := hoffset o ho
      simp only [settled, ho, Option.map_some, settledOffset]
      split
      · decide
      · exact decide_eq_true ho'

/-- A point in time is settled unless its offset is shorter than a second and not zero. -/
theorem settled_eq_iff {t : Instant} :
    t.settled = t ↔ ∀ o, t.offset = some o → o = 0 ∨ 1000000 ≤ o.natAbs := by
  obtain ⟨date, hour, minute, second, microsecond, offset⟩ := t
  cases offset with
  | none => simp [settled]
  | some o =>
      simp only [settled, Option.map_some, settledOffset, Instant.mk.injEq, true_and,
        Option.some.injEq, forall_eq']
      split <;> omega

theorem charsWith_eq (separator : Char) (t : Instant) : t.charsWith separator =
    t.date.chars ++ separator :: (t.clockChars ++
      match t.offset with | none => [] | some o => offsetChars o) :=
  List.append_assoc _ _ _

/-- The time of day is read back. -/
theorem readClock_clockChars {t : Instant} (h : t.isValid = true) :
    Iso.readClock t.clockChars = some (⟨t.hour, t.minute, t.second, t.microsecond⟩, true) := by
  obtain ⟨-, hhour, hminute, hsecond, hmicrosecond, -⟩ := bounds h
  rw [clockChars, List.append_assoc, List.append_assoc]
  split
  · next hzero =>
      rw [hzero, List.append_nil]
      exact Iso.readClock_second (by omega) (by omega) (by omega)
  · exact Iso.readClock_fraction (by omega) (by omega) (by omega) (by omega)

theorem mem_clockChars {t : Instant} {c : Char} (h : c ∈ t.clockChars) :
    isPlainDigit c = true ∨ c = ':' ∨ c = '.' := by
  simp only [clockChars, List.mem_append, List.mem_cons] at h
  rcases h with ((h | rfl | h) | rfl | h) | h
  · exact .inl (isPlainDigit_of_mem_paddedDigits _ _ c h)
  · exact .inr (.inl rfl)
  · exact .inl (isPlainDigit_of_mem_paddedDigits _ _ c h)
  · exact .inr (.inl rfl)
  · exact .inl (isPlainDigit_of_mem_paddedDigits _ _ c h)
  · split at h
    · exact absurd h List.not_mem_nil
    · rcases List.mem_cons.1 h with rfl | h
      · exact .inr (.inr rfl)
      · exact .inl (isPlainDigit_of_mem_paddedDigits _ _ c h)

/-- The time of day has no mark of an offset in it. -/
theorem isMark_of_mem_clockChars {t : Instant} {c : Char} (h : c ∈ t.clockChars) :
    (c == '+' || c == '-' || c == 'Z') = false := by
  rcases mem_clockChars h with hplain | rfl | rfl
  · simp only [Bool.or_eq_false_iff, beq_eq_false_iff_ne]
    refine ⟨⟨?_, ?_⟩, ?_⟩ <;> rintro rfl <;> exact absurd hplain (by decide)
  · rfl
  · rfl

/-- The parts of an offset are put together again, and a fraction does not count where there is no
whole second. -/
theorem readOffset_of_readClock {o : Int} {body : List Char} {h m s f : Nat}
    (hclock : Iso.readClock body = some (⟨h, m, s, f⟩, true))
    (hseconds : h * 3600 + m * 60 + s = o.natAbs / 1000000) (hf : f = o.natAbs % 1000000) :
    Iso.readOffset (decide (o < 0)) body = some (settledOffset o) := by
  have hjoin : o.natAbs / 1000000 * 1000000 + f = o.natAbs := by
    rw [hf]
    exact Nat.div_add_mod' o.natAbs 1000000
  have hsign : (if o < 0 then -(o.natAbs : Int) else o.natAbs) = o := by
    split <;> omega
  simp only [Iso.readOffset, hclock, hseconds, hjoin, settledOffset, decide_eq_true_eq]
  by_cases hsmall : o.natAbs < 1000000
  · have hnone : o.natAbs / 1000000 = 0 := by omega
    rw [if_pos hsmall, if_pos hnone, Int.neg_zero, ite_self]
  · have hsome : o.natAbs / 1000000 ≠ 0 := by omega
    rw [if_neg hsmall, if_neg hsome, hsign]

/-- An offset is a sign and what is read as the offset, unless it is shorter than a second. -/
theorem offsetChars_eq {o : Int} (h : -dayLength < o ∧ o < dayLength) :
    ∃ body, offsetChars o = (if o < 0 then '-' else '+') :: body ∧
      Iso.readOffset (decide (o < 0)) body = some (settledOffset o) := by
  have hday : o.natAbs < 86400000000 := by
    simp only [dayLength] at h
    omega
  have hhour : o.natAbs / 1000000 / 3600 < 10 ^ 2 := by omega
  have hminute : o.natAbs / 1000000 / 60 % 60 < 10 ^ 2 := by omega
  have hsecond : o.natAbs / 1000000 % 60 < 10 ^ 2 := by omega
  have hfraction : o.natAbs % 1000000 < 10 ^ 6 := by omega
  -- seconds are left out where they are zero, and so are microseconds
  by_cases hf : o.natAbs % 1000000 = 0
  · by_cases hs : o.natAbs / 1000000 % 60 = 0
    · refine ⟨paddedDigits 2 (o.natAbs / 1000000 / 3600) ++
        ':' :: paddedDigits 2 (o.natAbs / 1000000 / 60 % 60), ?_, ?_⟩
      · simp only [offsetChars, hf, hs, ne_eq, not_true_eq_false, if_false, List.cons_append]
      · exact readOffset_of_readClock (Iso.readClock_minute hhour hminute) (by omega) hf.symm
    · refine ⟨paddedDigits 2 (o.natAbs / 1000000 / 3600) ++
        ':' :: (paddedDigits 2 (o.natAbs / 1000000 / 60 % 60) ++
          ':' :: paddedDigits 2 (o.natAbs / 1000000 % 60)), ?_, ?_⟩
      · simp only [offsetChars, hf, hs, ne_eq, not_true_eq_false, not_false_eq_true, if_false,
          if_true, List.cons_append, List.append_assoc]
      · exact readOffset_of_readClock (Iso.readClock_second hhour hminute hsecond) (by omega)
          hf.symm
  · refine ⟨paddedDigits 2 (o.natAbs / 1000000 / 3600) ++
      ':' :: (paddedDigits 2 (o.natAbs / 1000000 / 60 % 60) ++
        ':' :: (paddedDigits 2 (o.natAbs / 1000000 % 60) ++
          '.' :: paddedDigits 6 (o.natAbs % 1000000))), ?_, ?_⟩
    · simp only [offsetChars, hf, ne_eq, not_false_eq_true, if_true, List.cons_append,
        List.append_assoc]
    · exact readOffset_of_readClock (Iso.readClock_fraction hhour hminute hsecond hfraction)
        (by omega) rfl

end Instant

namespace Iso

open Instant

theorem dateLength_dashed {cs : List Char} {c : Char} {rest : List Char} (hlength : cs.length ≠ 7)
    (hdrop : cs.drop 4 = '-' :: c :: rest) (hc : c ≠ 'W') : dateLength cs = 10 := by
  rw [dateLength, if_neg hlength, hdrop]
  split
  · next heq => exact absurd (List.cons.inj (List.cons.inj heq).2).1 hc
  · rfl
  · next heq => exact absurd (List.cons.inj heq).1 (by decide)
  · next hdash _ => exact absurd rfl (hdash _)

theorem dateLength_charsWith (separator : Char) (t : Instant) :
    dateLength (t.charsWith separator) = 10 := by
  have hmonth := isPlainDigit_digitChar (t.date.month / 10 % 10) (Nat.mod_lt _ (by omega))
  refine dateLength_dashed (c := digitChar (t.date.month / 10 % 10)) ?_ (by rfl) ?_
  · have hdate := Date.length_chars t.date
    simp only [charsWith, List.length_append, List.length_cons, hdate]
    omega
  · intro h
    rw [h] at hmonth
    exact absurd hmonth (by decide)

/-- The time of day and the offset of a point in time are read back. -/
theorem readTime_clockChars {t : Instant} (h : t.isValid = true) :
    readTime (t.clockChars ++ match t.offset with | none => [] | some o => offsetChars o) =
      some (⟨t.hour, t.minute, t.second, t.microsecond⟩, t.settled.offset) := by
  have hclock : ∀ c ∈ t.clockChars, (!(c == '+' || c == '-' || c == 'Z')) = true := by
    intro c hc
    rw [isMark_of_mem_clockChars hc]
    rfl
  obtain ⟨-, -, -, -, -, hoffset⟩ := bounds h
  cases ho : t.offset with
  | none =>
      simp only [readTime, List.append_nil]
      rw [List.takeWhile_eq_self_iff.2 hclock, List.dropWhile_eq_nil_iff.2 hclock,
        readClock_clockChars h]
      simp only [settled, ho, Option.map_none, if_true]
  | some o =>
      obtain ⟨body, hbody, hread⟩ := offsetChars_eq (hoffset o ho)
      -- the sign ends the time of day
      have hsign : (!((if o < 0 then '-' else '+') == '+' || (if o < 0 then '-' else '+') == '-' ||
          (if o < 0 then '-' else '+') == 'Z')) = false := by
        split <;> rfl
      simp only [readTime, hbody]
      rw [List.takeWhile_append_of_pos hclock, List.dropWhile_append_of_pos hclock,
        List.takeWhile_cons_of_neg (by rw [hsign]; exact Bool.false_ne_true),
        List.dropWhile_cons_of_neg (by rw [hsign]; exact Bool.false_ne_true), List.append_nil,
        readClock_clockChars h]
      have hz : ((if o < 0 then '-' else '+') == 'Z') = false := by
        split <;> rfl
      have hminus : ((if o < 0 then '-' else '+') == '-') = decide (o < 0) := by
        by_cases hneg : o < 0 <;> simp [hneg]
      simp only [hz, hminus, Bool.false_eq_true, if_false, hread, Option.map_some, settled, ho]

/-- **A point in time is read back from its text** with any separator, an offset shorter than a second
as none. -/
theorem readInstantChars_charsWith (separator : Char) {t : Instant} (h : t.isValid = true) :
    readInstantChars (t.charsWith separator) = some t.settled := by
  obtain ⟨hdate, -⟩ := bounds h
  have hlength : ¬(t.charsWith separator).length < 7 := by
    have hlength := Date.length_chars t.date
    simp only [charsWith, List.length_append, List.length_cons, hlength]
    omega
  have htake : (t.charsWith separator).take 10 = t.date.chars := by
    rw [charsWith_eq, List.take_left' (Date.length_chars t.date)]
  have hdrop : (t.charsWith separator).drop 10 = separator :: (t.clockChars ++
      match t.offset with | none => [] | some o => offsetChars o) := by
    rw [charsWith_eq, List.drop_left' (Date.length_chars t.date)]
  have hsettled := isValid_settled h
  rw [readInstantChars, if_neg hlength]
  simp only [dateLength_charsWith, htake, hdrop, readDateChars_chars hdate, readTime_clockChars h]
  exact if_pos hsettled

theorem readInstant?_isoText {t : Instant} (h : t.isValid = true) :
    readInstant? t.isoText = some t.settled := by
  rw [readInstant?, isoText, String.toList_ofList]
  exact readInstantChars_charsWith 'T' h

end Iso

/-! ## What the texts are written with -/

namespace Instant

/-- A digit, or a mark that stands between numbers. -/
def IsWritten (c : Char) : Prop :=
  isPlainDigit c = true ∨ c ∈ ['-', '+', ':', '.']

theorem isWritten_paddedDigits (width n : Nat) : ∀ c ∈ paddedDigits width n, IsWritten c :=
  fun c hc => .inl (isPlainDigit_of_mem_paddedDigits width n c hc)

theorem isWritten_cons {mark : Char} (hmark : mark ∈ ['-', '+', ':', '.']) {cs : List Char}
    (h : ∀ c ∈ cs, IsWritten c) : ∀ c ∈ mark :: cs, IsWritten c :=
  List.forall_mem_cons.2 ⟨.inr hmark, h⟩

theorem isWritten_append {cs ds : List Char} (h : ∀ c ∈ cs, IsWritten c)
    (h' : ∀ c ∈ ds, IsWritten c) : ∀ c ∈ cs ++ ds, IsWritten c :=
  List.forall_mem_append.2 ⟨h, h'⟩

theorem isWritten_date (d : Date) : ∀ c ∈ d.chars, IsWritten c := by
  have hnumber := isWritten_paddedDigits
  apply isWritten_append
  · exact isWritten_append (hnumber _ _) (isWritten_cons (by decide) (hnumber _ _))
  · exact isWritten_cons (by decide) (hnumber _ _)

theorem isWritten_offsetChars (o : Int) : ∀ c ∈ offsetChars o, IsWritten c := by
  have hnumber := isWritten_paddedDigits
  have hhead : ∀ hour minute : Nat, ∀ c ∈ (if o < 0 then '-' else '+') :: paddedDigits 2 hour ++
      ':' :: paddedDigits 2 minute, IsWritten c := by
    intro hour minute
    apply isWritten_append
    · refine isWritten_cons ?_ (hnumber _ _)
      split <;> decide
    · exact isWritten_cons (by decide) (hnumber _ _)
  simp only [offsetChars]
  split
  · apply isWritten_append
    · exact isWritten_append (hhead _ _) (isWritten_cons (by decide) (hnumber _ _))
    · exact isWritten_cons (by decide) (hnumber _ _)
  · split
    · exact isWritten_append (hhead _ _) (isWritten_cons (by decide) (hnumber _ _))
    · exact hhead _ _

/-- The time of day and the offset. -/
theorem isWritten_time (t : Instant) : ∀ c ∈ t.clockChars ++
    match t.offset with | none => [] | some o => offsetChars o, IsWritten c := by
  apply isWritten_append
  · intro c hc
    rcases mem_clockChars hc with hplain | rfl | rfl
    · exact .inl hplain
    · exact .inr (by decide)
    · exact .inr (by decide)
  · split
    · exact fun c hc => absurd hc List.not_mem_nil
    · exact isWritten_offsetChars _

theorem IsWritten.isBlank {c : Char} (h : IsWritten c) : Text.isBlank c = false := by
  rcases h with hplain | hmark
  · exact isBlank_of_isPlainDigit hplain
  · simp only [List.mem_cons, List.not_mem_nil, or_false] at hmark
    rcases hmark with rfl | rfl | rfl | rfl <;> rfl

theorem IsWritten.ne {c : Char} (h : IsWritten c) : c ≠ 'Z' := by
  rintro rfl
  rcases h with hplain | hmark
  · exact absurd hplain (by decide)
  · exact absurd hmark (by decide)

theorem trimChars_charsWith (separator : Char) (t : Instant) :
    trimChars (t.charsWith separator) = t.charsWith separator := by
  apply trimChars_eq_self
  · intro c hc
    have hdate : t.date.chars.head? = some c := hc
    exact (isWritten_date t.date c (List.mem_of_mem_head? hdate)).isBlank
  · have hne : t.clockChars ++ (match t.offset with | none => [] | some o => offsetChars o) ≠ [] :=
      List.append_ne_nil_of_left_ne_nil (List.cons_ne_nil _ _) _
    rw [charsWith_eq, List.append_cons, endsBlank_append_iff hne]
    exact not_endsBlank_of_isBlank fun c hc => (isWritten_time t c hc).isBlank

/-- The letter for universal time is not written. -/
theorem not_mem_charsWith {separator : Char} (h : separator ≠ 'Z') (t : Instant) :
    'Z' ∉ t.charsWith separator := by
  rw [charsWith_eq]
  intro hmem
  rcases List.mem_append.1 hmem with hmem | hmem
  · exact (isWritten_date t.date _ hmem).ne rfl
  · rcases List.mem_cons.1 hmem with hmem | hmem
    · exact h hmem.symm
    · exact (isWritten_time t _ hmem).ne rfl

end Instant

end Listing
