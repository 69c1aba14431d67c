import Mathlib.Data.List.Nodup
import Mathlib.Data.Set.Finite.List
import Listing.Log.Line
import Listing.Proofs.MaskedValues
import Listing.Proofs.PutEntries
import Listing.Proofs.TracedResult

/-!
# Redacted log lines

A field of a line is set in the line, is the event's own and redacted, or is the context's as it was
bound (`Log.Entry.mem_namedFields`). Three things are joined to a line after the redaction: what the
context binds, the name of a record and the text of the call stack (`Log.Entry.Unredacted`). So the
lines of a run are masked if and only if these are (`Log.lines_masked_iff`); no other field or bound
value of an event can change that, whatever its depth.
-/

set_option autoImplicit false

namespace Listing

/-! ## Fields of lines -/

namespace Redaction

/-- What stands in a line under a name of the event's own. -/
def redactUnder (r : Redaction) (name : String) (v : Value) : Value :=
  if r.isSensitive name then .text mask else r.redact v

theorem redactUnder_of_not_isSensitive {r : Redaction} {name : String}
    (h : r.isSensitive name = false) (v : Value) : r.redactUnder name v = r.redact v := by
  rw [redactUnder, h, if_neg Bool.false_ne_true]

/-- A text is written under any name, redacted or not. -/
theorem exists_ofValue_redactUnder_text (r : Redaction) (name s : String) :
    ∃ j, Json.ofValue (r.redactUnder name (.text s)) = .ok j := by
  rw [redactUnder]
  split <;> exact ⟨_, rfl⟩

/-- The value is written with the mask under every sensitive name, the given one among them. -/
def MaskedUnder (r : Redaction) (name : String) (v : Value) : Prop :=
  ∀ j, Json.ofValue v = .ok j → (r.isSensitive name = true → j = .text mask) ∧ j.Masked r

theorem Spares.maskedUnder_redactUnder {r : Redaction} (h : r.Spares) (name : String) (v : Value) :
    r.MaskedUnder name (r.redactUnder name v) := by
  intro j hj
  rw [redactUnder] at hj
  split at hj
  · obtain rfl := Except.ok.inj hj
    exact ⟨fun _ => rfl, trivial⟩
  · next hplain => exact ⟨fun hsensitive => absurd hsensitive hplain, h.masked_redact v j hj⟩

/-- A text is written masked under a name that is not sensitive. -/
theorem maskedUnder_text {r : Redaction} {name : String} (h : r.isSensitive name = false)
    (s : String) : r.MaskedUnder name (.text s) := by
  intro j hj
  obtain rfl := Except.ok.inj hj
  exact ⟨fun hsensitive => absurd hsensitive (by simp [h]), trivial⟩

theorem redactEntries_named (r : Redaction) (fields : List (String × Value)) :
    (r.redactEntries (fields.map fun (name, v) => (.text name, v))).filterMap
      (fun (k, v) => k.text?.map fun name => (name, v)) =
        fields.map fun (name, v) => (name, r.redactUnder name v) := by
  induction fields with
  | nil => rfl
  | cons f fields ih => exact congrArg ((f.1, r.redactUnder f.1 f.2) :: ·) ih

end Redaction

namespace Json

/-- Fields under names are written one by one. -/
theorem mem_ofEntries {entries : List (String × Value)} {fields : List (String × Json)}
    (h : ofEntries (entries.map fun (name, v) => (.text name, v)) = .ok fields) {name : String}
    {j : Json} : (name, j) ∈ fields ↔ ∃ v, (name, v) ∈ entries ∧ ofValue v = .ok j := by
  induction entries generalizing fields with
  | nil =>
      obtain rfl := Except.ok.inj h
      simp
  | cons e entries ih =>
      obtain ⟨s, v⟩ := e
      obtain ⟨t, i, rest, ht, hi, hrest, rfl⟩ := ofEntries_cons_eq_ok.1 h
      obtain rfl := Except.ok.inj ht
      rw [List.mem_cons, ih hrest]
      constructor
      · rintro (heq | ⟨w, hw, hj⟩)
        · obtain ⟨rfl, rfl⟩ := Prod.mk.inj heq
          exact ⟨v, List.mem_cons_self, hi⟩
        · exact ⟨w, List.mem_cons_of_mem _ hw, hj⟩
      · rintro ⟨w, hw, hj⟩
        rcases List.mem_cons.1 hw with heq | hw
        · obtain ⟨rfl, rfl⟩ := Prod.mk.inj heq
          exact .inl (by rw [Except.ok.inj (hi.symm.trans hj)])
        · exact .inr ⟨w, hw, hj⟩

/-- Fields are written if each of them is. -/
theorem exists_ofEntries {entries : List (String × Value)}
    (h : ∀ name v, (name, v) ∈ entries → ∃ j, ofValue v = .ok j) :
    ∃ fields, ofEntries (entries.map fun (name, v) => (.text name, v)) = .ok fields := by
  induction entries with
  | nil => exact ⟨[], rfl⟩
  | cons e entries ih =>
      obtain ⟨s, v⟩ := e
      obtain ⟨j, hj⟩ := h s v List.mem_cons_self
      obtain ⟨rest, hrest⟩ := ih fun name w hw => h name w (List.mem_cons_of_mem _ hw)
      exact ⟨_, ofEntries_cons_eq_ok.2 ⟨s, j, rest, rfl, hj, hrest, rfl⟩⟩

end Json

namespace Log

namespace Entry

/-- The names that are set in every line. -/
def stampNames : List String := ["logger", "level", "timestamp"]

section

variable (r : Redaction) (stack : String) (context : List (String × Value)) (e : Entry)

/-- The fields ask for the text of the call stack. -/
def AsksForStack : Prop :=
  ((Entries.get? "stack_info" (e.joinedFields r context)).getD .null).isTruthy = true

/-- The fields hold a record, whose name is shown as that of the logger. -/
def HoldsRecord : Prop :=
  (Entries.get? "_record" (e.joinedFields r context)).getD .null ≠ .null

/-- The line of an entry shows what the context has under the name. -/
def Shows (name : String) : Prop :=
  name ∉ stampNames ∧ (name = "stack" → ¬e.AsksForStack r context) ∧
    name ∉ e.ownFields.map (·.1) ∧ name ∉ droppedNames

/-- What the line of an entry shows under a name without having redacted it. -/
inductive Unredacted : String → Value → Prop
  | context {name : String} {v : Value} (hmem : (name, v) ∈ context)
      (hshows : e.Shows r context name) : Unredacted name v
  | record {v : Value} (hrecord : e.HoldsRecord r context)
      (hname : e.loggerName (e.joinedFields r context) = .ok v) : Unredacted "logger" v
  | stack (hasks : e.AsksForStack r context) : Unredacted "stack" (.text stack)

/-- What is set in a line under the name of its logger. -/
def stamps (logger : Value) : List (String × Value) :=
  [("logger", logger), ("level", .text e.severity.name), ("timestamp", .bool true)] ++
    stackFields stack (e.joinedFields r context)

/-- The fields of a line by their names, under the name of its logger. -/
def namedFields (logger : Value) : List (String × Value) :=
  (Entries.override (e.joinedFields r context) (e.stamps r stack context logger)).filter
    fun (name, _) => !droppedNames.contains name

end

variable {r : Redaction} {stack : String} {context : List (String × Value)} {e : Entry}
  {logger : Value}

/-- A line is that of its fields by their names, unless one of them cannot be written. -/
theorem line?_eq_ok_iff {l : Option Json} : e.line? r stack context = .ok l ↔
    ∃ logger, e.loggerName (e.joinedFields r context) = .ok logger ∧
      ((Json.ofEntries ((e.namedFields r stack context logger).map fun (name, v) =>
        (.text name, v))).map .record).toOption = l := by
  rw [line?, lineFields]
  cases e.loggerName (e.joinedFields r context) with
  | error f => simp [bind, Except.bind]
  | ok logger =>
      simp only [bind, Except.bind, pure, Except.pure, Except.ok.injEq, exists_eq_left']
      rfl

theorem line?_eq_some {j : Json} (h : e.line? r stack context = .ok (some j)) :
    ∃ logger fields, e.loggerName (e.joinedFields r context) = .ok logger ∧
      Json.ofEntries ((e.namedFields r stack context logger).map fun (name, v) =>
        (.text name, v)) = .ok fields ∧ j = .record fields := by
  obtain ⟨logger, hlogger, hline⟩ := line?_eq_ok_iff.1 h
  refine ⟨logger, ?_⟩
  cases hfields : Json.ofEntries ((e.namedFields r stack context logger).map fun (name, v) =>
      (Value.text name, v)) with
  | error f => simp [hfields, Except.map, Except.toOption] at hline
  | ok fields =>
      simp only [hfields, Except.map, Except.toOption, Option.some.injEq] at hline
      exact ⟨fields, hlogger, rfl, hline.symm⟩

theorem joinedFields_eq (r : Redaction) (context : List (String × Value)) (e : Entry) :
    e.joinedFields r context =
      Entries.override context (e.ownFields.map fun (name, v) => (name, r.redactUnder name v)) := by
  rw [joinedFields, r.redactEntries_named]

theorem nodup_ownFields (e : Entry) : (e.ownFields.map (·.1)).Nodup := by
  have hnil : (([] : List (String × Value)).map (·.1)).Nodup := List.nodup_nil
  exact Entries.nodup_put (Entries.nodup_override (Entries.nodup_override hnil e.bound) e.fields)

/-- A joined field is the entry's own and redacted, or the context's as it was bound. -/
theorem mem_joinedFields (hcontext : (context.map (·.1)).Nodup) {name : String} {v : Value} :
    (name, v) ∈ e.joinedFields r context ↔
      (∃ w, (name, w) ∈ e.ownFields ∧ v = r.redactUnder name w) ∨
      name ∉ e.ownFields.map (·.1) ∧ (name, v) ∈ context := by
  have hnames : (e.ownFields.map fun (name, v) => (name, r.redactUnder name v)).map (·.1) =
      e.ownFields.map (·.1) := by
    rw [List.map_map]
    rfl
  have hown : (name, v) ∈ (e.ownFields.map fun (name, v) => (name, r.redactUnder name v)) ↔
      ∃ w, (name, w) ∈ e.ownFields ∧ v = r.redactUnder name w := by
    simp only [List.mem_map, Prod.mk.injEq, Prod.exists]
    constructor
    · rintro ⟨_, w, hw, rfl, rfl⟩
      exact ⟨w, hw, rfl⟩
    · rintro ⟨w, hw, rfl⟩
      exact ⟨name, w, hw, rfl, rfl⟩
  rw [joinedFields_eq, Entries.mem_override hcontext (hnames.symm ▸ e.nodup_ownFields), hnames,
    hown]

theorem stackFields_of_asksForStack (h : e.AsksForStack r context) (stack : String) :
    stackFields stack (e.joinedFields r context) = [("stack", .text stack)] :=
  if_pos h

theorem stackFields_of_not_asksForStack (h : ¬e.AsksForStack r context) (stack : String) :
    stackFields stack (e.joinedFields r context) = [] :=
  if_neg h

/-- What is set in a line stands under the names that are always set, and under that of the stack if
it is asked for. -/
theorem mem_names_stamps {name : String} :
    name ∈ (e.stamps r stack context logger).map (·.1) ↔
      name ∈ stampNames ∨ name = "stack" ∧ e.AsksForStack r context := by
  rw [stamps, List.map_append, List.mem_append]
  by_cases hasks : e.AsksForStack r context
  · simp [stackFields_of_asksForStack hasks, stampNames, hasks]
  · simp [stackFields_of_not_asksForStack hasks, stampNames, hasks]

theorem nodup_stamps : ((e.stamps r stack context logger).map (·.1)).Nodup := by
  rw [stamps, stackFields]
  split
  · exact (by decide : ["logger", "level", "timestamp", "stack"].Nodup)
  · exact (by decide : ["logger", "level", "timestamp"].Nodup)

/-- **A field of a line is set in the line, is the entry's own and redacted, or is the context's as
it was bound.** -/
theorem mem_namedFields (hcontext : (context.map (·.1)).Nodup) {name : String} {v : Value} :
    (name, v) ∈ e.namedFields r stack context logger ↔
      (name, v) ∈ e.stamps r stack context logger ∨
      (name ∉ (e.stamps r stack context logger).map (·.1) ∧ name ∉ droppedNames ∧
        ∃ w, (name, w) ∈ e.ownFields ∧ v = r.redactUnder name w) ∨
      e.Shows r context name ∧ (name, v) ∈ context := by
  have hjoined : ((e.joinedFields r context).map (·.1)).Nodup := by
    rw [joinedFields_eq]
    exact Entries.nodup_override hcontext _
  -- nothing that is set is dropped
  have hstamped : (name, v) ∈ e.stamps r stack context logger → name ∉ droppedNames := by
    intro hmem
    rcases mem_names_stamps.1 (List.mem_map.2 ⟨(name, v), hmem, rfl⟩) with hname | ⟨rfl, -⟩
    · exact (by decide : ∀ s ∈ stampNames, s ∉ droppedNames) name hname
    · decide
  have hcut : (!droppedNames.contains name) = true ↔ name ∉ droppedNames := by
    simp
  have hshows : e.Shows r context name ↔ name ∉ (e.stamps r stack context logger).map (·.1) ∧
      name ∉ e.ownFields.map (·.1) ∧ name ∉ droppedNames := by
    rw [Shows, mem_names_stamps, not_or, not_and, and_assoc]
  rw [namedFields, List.mem_filter, hcut, Entries.mem_override hjoined nodup_stamps,
    mem_joinedFields hcontext, hshows]
  constructor
  · rintro ⟨hstamp | ⟨hstamp, hmem | ⟨hnew, hmem⟩⟩, hkept⟩
    · exact .inl hstamp
    · exact .inr (.inl ⟨hstamp, hkept, hmem⟩)
    · exact .inr (.inr ⟨⟨hstamp, hnew, hkept⟩, hmem⟩)
  · rintro (hstamp | ⟨hstamp, hkept, hmem⟩ | ⟨⟨hstamp, hnew, hkept⟩, hmem⟩)
    · exact ⟨.inl hstamp, hstamped hstamp⟩
    · exact ⟨.inr ⟨hstamp, .inl hmem⟩, hkept⟩
    · exact ⟨.inr ⟨hstamp, .inr ⟨hnew, hmem⟩⟩, hkept⟩

/-- A line is masked if and only if its fields are. -/
theorem masked_record_iff {fields : List (String × Json)}
    (h : Json.ofEntries ((e.namedFields r stack context logger).map fun (name, v) =>
      (.text name, v)) = .ok fields) : (Json.record fields).Masked r ↔
        ∀ name v, (name, v) ∈ e.namedFields r stack context logger → r.MaskedUnder name v := by
  rw [Json.Masked, Json.maskedFields_iff]
  constructor
  · intro hmasked name v hmem j hj
    exact hmasked name j ((Json.mem_ofEntries h).2 ⟨v, hmem, hj⟩)
  · intro hmasked name j hmem
    obtain ⟨v, hv, hj⟩ := (Json.mem_ofEntries h).1 hmem
    exact hmasked name v hv j hj

/-- Without a record the name of the logger is its own. -/
theorem loggerName_of_not_holdsRecord (h : ¬e.HoldsRecord r context) :
    e.loggerName (e.joinedFields r context) = .ok (.text e.logger) := by
  rw [HoldsRecord, not_not] at h
  rw [loggerName, h]

/-- What is set in a line is masked under names that are not sensitive, if the name of a record and
the text of the call stack are. -/
theorem maskedUnder_stamps (hplain : ∀ name ∈ stampNames, r.isSensitive name = false)
    (hlogger : e.loggerName (e.joinedFields r context) = .ok logger)
    (hshown : ∀ name v, e.Unredacted r stack context name v → r.MaskedUnder name v) {name : String}
    {v : Value} (h : (name, v) ∈ e.stamps r stack context logger) : r.MaskedUnder name v := by
  rw [stamps, List.mem_append] at h
  rcases h with h | h
  · simp only [List.mem_cons, Prod.mk.injEq, List.not_mem_nil, or_false] at h
    rcases h with ⟨rfl, rfl⟩ | ⟨rfl, rfl⟩ | ⟨rfl, rfl⟩
    · by_cases hrecord : e.HoldsRecord r context
      · exact hshown _ _ (.record hrecord hlogger)
      · rw [loggerName_of_not_holdsRecord hrecord] at hlogger
        obtain rfl := Except.ok.inj hlogger
        exact Redaction.maskedUnder_text (hplain _ (by decide)) _
    · exact Redaction.maskedUnder_text (hplain _ (by decide)) _
    · intro j hj
      obtain rfl := Except.ok.inj hj
      exact ⟨fun hsensitive => absurd hsensitive (by simp [hplain "timestamp" (by decide)]), trivial⟩
  · by_cases hasks : e.AsksForStack r context
    · rw [stackFields_of_asksForStack hasks] at h
      obtain ⟨rfl, rfl⟩ := Prod.mk.inj (List.mem_singleton.1 h)
      exact hshown _ _ (.stack hasks)
    · rw [stackFields_of_not_asksForStack hasks] at h
      exact absurd h List.not_mem_nil

/-- What a line shows without having redacted it is a field of the line. -/
theorem Unredacted.mem_namedFields (hcontext : (context.map (·.1)).Nodup)
    (hlogger : e.loggerName (e.joinedFields r context) = .ok logger) {name : String} {v : Value}
    (h : e.Unredacted r stack context name v) : (name, v) ∈ e.namedFields r stack context logger := by
  refine (Entry.mem_namedFields hcontext).2 ?_
  cases h with
  | context hmem hshows => exact .inr (.inr ⟨hshows, hmem⟩)
  | record hrecord hname =>
      obtain rfl := Except.ok.inj (hname.symm.trans hlogger)
      exact .inl (List.mem_append_left _ List.mem_cons_self)
  | stack hasks =>
      refine .inl (List.mem_append_right _ ?_)
      rw [stackFields_of_asksForStack hasks]
      exact List.mem_singleton_self _

/-- **A line is masked if and only if what it shows without having redacted it is.** -/
theorem masked_line_iff (hr : r.Spares)
    (hplain : ∀ name ∈ stampNames, r.isSensitive name = false)
    (hcontext : (context.map (·.1)).Nodup) {j : Json}
    (hj : e.line? r stack context = .ok (some j)) :
    j.Masked r ↔ ∀ name v, e.Unredacted r stack context name v → r.MaskedUnder name v := by
  obtain ⟨logger, fields, hlogger, hfields, rfl⟩ := line?_eq_some hj
  rw [masked_record_iff hfields]
  constructor
  · exact fun h name v hshown => h name v (hshown.mem_namedFields hcontext hlogger)
  · intro h name v hmem
    rcases (mem_namedFields hcontext).1 hmem with hstamp | ⟨-, -, w, -, rfl⟩ | ⟨hshows, hmem⟩
    · exact maskedUnder_stamps hplain hlogger h hstamp
    · exact hr.maskedUnder_redactUnder name w
    · exact h name v (.context hmem hshows)

end Entry

/-! ## Runs -/

/-- The lines of a run are those of its entries of sufficient rank that can be written. -/
theorem mem_lines {r : Redaction} {least : Nat} {context : List (String × Value)}
    {stackAt : Entry → String} {entries : List Entry} {ls : List Json}
    (h : lines r least context entries stackAt = .ok ls) {j : Json} : j ∈ ls ↔
      ∃ e ∈ entries, least ≤ e.severity.rank ∧ e.line? r (stackAt e) context = .ok (some j) := by
  induction entries generalizing ls with
  | nil =>
      obtain rfl := Except.ok.inj h
      simp
  | cons e entries ih =>
      rw [lines] at h
      split at h
      · obtain ⟨l, hl, h⟩ := Result.bind_eq_ok.1 h
        obtain ⟨others, hothers, h⟩ := Result.bind_eq_ok.1 h
        have hline : e.line? r (stackAt e) context = .ok (some j) ↔ j ∈ l.toList := by
          rw [hl, Except.ok.injEq, Option.mem_toList]
        rw [List.exists_mem_cons_iff, ← ih hothers, hline]
        split at h
        · next hrank =>
            obtain rfl := Except.ok.inj h
            rw [List.mem_append, and_iff_right hrank]
        · next hrank =>
            obtain rfl := Except.ok.inj h
            exact ⟨.inr, fun h => h.resolve_left fun h => hrank h.1⟩
      · exact absurd h (by simp)

end Log

/-! ## Sensitive names -/

namespace Redaction

open Text

/-- No ending that is sensitive by default is one of a name without a mark between words. -/
theorem isSensitive_iff_of_plain {names : Option (List String)} {s : String}
    (h : '_' ∉ (lower s).toList) :
    (make names none).isSensitive s = true ↔ lower s ∈ (make names none).names := by
  have hmark : ∀ e ∈ defaultEndings.map lower, '_' ∈ e.toList := by decide +kernel
  rw [isSensitive, Bool.or_eq_true, List.contains_iff_mem, or_iff_left]
  intro hending
  obtain ⟨e, he, hsuffix⟩ := List.any_eq_true.1 hending
  exact h ((List.isSuffixOf_iff_suffix.1 hsuffix).subset (hmark e he))

/-- A name that is set in every line is not sensitive if it is not given as such. -/
theorem isSensitive_stampNames {names : Option (List String)}
    (hnames : ∀ s ∈ names.getD [], lower s ∉ Log.Entry.stampNames) :
    ∀ s ∈ Log.Entry.stampNames, (make names none).isSensitive s = false := by
  have hplain : ∀ s ∈ Log.Entry.stampNames, lower s = s ∧ '_' ∉ (lower s).toList := by
    decide +kernel
  have hdefault : ∀ s ∈ defaultNames, lower s ∉ Log.Entry.stampNames := by decide +kernel
  intro s hs
  obtain ⟨hlower, hmark⟩ := hplain s hs
  rw [Bool.eq_false_iff, Ne, isSensitive_iff_of_plain hmark, hlower, make]
  intro hmem
  obtain ⟨t, ht, rfl⟩ := List.mem_map.1 hmem
  split at ht
  · exact hdefault t ht hs
  · exact hnames t ht hs

/-- As many letters. -/
def letters (n : Nat) : String :=
  String.ofList (List.replicate n 'a')

theorem lower_letters (n : Nat) : lower (letters n) = letters n := by
  have hletter : ∀ c ∈ List.replicate n 'a', c = 'a' := fun c hc => List.eq_of_mem_replicate hc
  rw [lower, letters, String.toList_ofList,
    lowerAfter_of_plain fun c hc => hletter c hc ▸ by decide, List.map_replicate]
  rfl

/-- There is always another name that is not sensitive. -/
theorem exists_plain_name (names : Option (List String)) (taken : List String) :
    ∃ s, s ∉ taken ∧ (make names none).isSensitive s = false := by
  have hinjective : Function.Injective letters := by
    intro m n h
    have hlength := congrArg (fun s : String => s.toList.length) h
    simpa [letters] using hlength
  obtain ⟨_, ⟨n, rfl⟩, hn⟩ := (Set.infinite_range_of_injective hinjective).exists_notMem_finite
    (List.finite_toSet (taken ++ (make names none).names))
  have hn : letters n ∉ taken ++ (make names none).names := hn
  rw [List.mem_append, not_or] at hn
  refine ⟨letters n, hn.1, ?_⟩
  have hmark : '_' ∉ (lower (letters n)).toList := by
    rw [lower_letters, letters, String.toList_ofList]
    exact fun h => absurd (List.eq_of_mem_replicate h) (by decide)
  rw [Bool.eq_false_iff, Ne, isSensitive_iff_of_plain hmark, lower_letters]
  exact hn.2

end Redaction

namespace Log

variable {r : Redaction}

/-- The entry of one field. -/
def Entry.ofField (s : String) (v : Value) : Entry :=
  ⟨.critical, "", "", [], [(s, v)]⟩

namespace Entry

variable {s : String} {v : Value}

theorem ownFields_ofField (hevent : s ≠ "event") :
    (ofField s v).ownFields = [(s, v), ("event", .text "")] :=
  if_neg hevent

/-- Neither a record nor the call stack is asked for under a free name. -/
theorem get?_joinedFields_ofField (hdropped : s ∉ droppedNames) (hevent : s ≠ "event")
    {special : String} (hspecial : special ∈ droppedNames) :
    Entries.get? special ((ofField s v).joinedFields r []) = none := by
  have hs : s ≠ special := fun h => hdropped (h ▸ hspecial)
  have hspecial : "event" ≠ special := fun h =>
    absurd (h ▸ hspecial : "event" ∈ droppedNames) (by decide)
  rw [joinedFields_eq, ownFields_ofField hevent]
  simp [Entries.override, Entries.put, Entries.get?, hs, hspecial, hevent]

theorem not_holdsRecord_ofField (hdropped : s ∉ droppedNames) (hevent : s ≠ "event") :
    ¬(ofField s v).HoldsRecord r [] := by
  rw [HoldsRecord, get?_joinedFields_ofField hdropped hevent (by decide), not_not]
  rfl

theorem not_asksForStack_ofField (hdropped : s ∉ droppedNames) (hevent : s ≠ "event") :
    ¬(ofField s v).AsksForStack r [] := by
  rw [AsksForStack, get?_joinedFields_ofField hdropped hevent (by decide)]
  decide

/-- All that stands in the line of one field under a free name was redacted. -/
theorem not_unredacted_ofField (hdropped : s ∉ droppedNames) (hevent : s ≠ "event")
    (stack name : String) (w : Value) : ¬(ofField s v).Unredacted r stack [] name w := by
  intro h
  cases h with
  | context hmem _ => exact absurd hmem List.not_mem_nil
  | record hrecord _ => exact not_holdsRecord_ofField hdropped hevent hrecord
  | stack hasks => exact not_asksForStack_ofField hdropped hevent hasks

/-- The name is free for a field of an event. -/
def IsFree (s : String) : Prop :=
  s ∉ "event" :: (reservedNames ++ stampNames ++ droppedNames)

/-- A free name is none that a line sets, drops or keeps for itself. -/
theorem IsFree.cases (h : IsFree s) :
    s ≠ "event" ∧ s ∉ reservedNames ∧ s ∉ stampNames ∧ s ∉ droppedNames := by
  simp only [IsFree, List.mem_cons, List.mem_append, not_or] at h
  exact ⟨h.1, h.2.1.1, h.2.1.2, h.2.2⟩

/-- What is set in the line of one field is written: three texts, since no stack is asked for. -/
theorem exists_ofValue_of_mem_stamps (hasks : ¬(ofField s v).AsksForStack r []) {name t : String}
    {w : Value} (h : (name, w) ∈ (ofField s v).stamps r "" [] (.text t)) :
    ∃ j, Json.ofValue w = .ok j := by
  rw [stamps, stackFields_of_not_asksForStack hasks, List.append_nil] at h
  simp only [List.mem_cons, Prod.mk.injEq, List.not_mem_nil, or_false] at h
  rcases h with ⟨-, rfl⟩ | ⟨-, rfl⟩ | ⟨-, rfl⟩ <;> exact ⟨_, rfl⟩

/-- The line of one field under a free name can be written if its value can. -/
theorem exists_ofValue_ofField (hfree : IsFree s) {j : Json}
    (hj : Json.ofValue (r.redactUnder s v) = .ok j) {name t : String} {w : Value}
    (h : (name, w) ∈ (ofField s v).namedFields r "" [] (.text t)) :
    ∃ i, Json.ofValue w = .ok i := by
  obtain ⟨hevent, -, -, hdropped⟩ := hfree.cases
  have hnil : (([] : List (String × Value)).map (·.1)).Nodup := List.nodup_nil
  rcases (mem_namedFields hnil).1 h with hset | ⟨-, -, u, hu, rfl⟩ | ⟨-, habsurd⟩
  · exact exists_ofValue_of_mem_stamps (not_asksForStack_ofField hdropped hevent) hset
  · rw [ownFields_ofField hevent] at hu
    rcases List.mem_pair.1 hu with heq | heq
    · obtain ⟨rfl, rfl⟩ := Prod.mk.inj heq
      exact ⟨j, hj⟩
    · obtain ⟨rfl, rfl⟩ := Prod.mk.inj heq
      exact r.exists_ofValue_redactUnder_text "event" ""
  · exact absurd habsurd List.not_mem_nil

/-- The field under a free name stands in its line, redacted. -/
theorem mem_namedFields_ofField (hfree : IsFree s) {logger : Value} :
    (s, r.redactUnder s v) ∈ (ofField s v).namedFields r "" [] logger := by
  obtain ⟨hevent, -, hstamp, hdropped⟩ := hfree.cases
  have hnil : (([] : List (String × Value)).map (·.1)).Nodup := List.nodup_nil
  have hset : s ∉ ((ofField s v).stamps r "" [] logger).map (·.1) := by
    rw [mem_names_stamps, not_or]
    exact ⟨hstamp, fun h => not_asksForStack_ofField hdropped hevent h.2⟩
  refine (mem_namedFields hnil).2 (.inr (.inl ⟨hset, hdropped, v, ?_, rfl⟩))
  rw [ownFields_ofField hevent]
  exact List.mem_cons_self

end Entry

/-- A value that is redacted and written under a free name stands in some line. -/
theorem exists_line {s : String} {v : Value} {j : Json} (hfree : Entry.IsFree s)
    (hs : r.isSensitive s = false) (hj : Json.ofValue (r.redact v) = .ok j) :
    ∃ l, lines r 0 [] [.ofField s v] = .ok [l] ∧ (l.Masked r → j.Masked r) := by
  obtain ⟨hevent, hreserved, -, hdropped⟩ := hfree.cases
  have hlogger := Entry.loggerName_of_not_holdsRecord
    (Entry.not_holdsRecord_ofField (r := r) (v := v) hdropped hevent)
  have hshown := Redaction.redactUnder_of_not_isSensitive hs v
  have hwritten : ∀ name w, (name, w) ∈ (Entry.ofField s v).namedFields r "" [] (.text "") →
      ∃ i, Json.ofValue w = .ok i := by
    intro name w hmem
    exact Entry.exists_ofValue_ofField hfree (hshown ▸ hj) hmem
  obtain ⟨fields, hfields⟩ := Json.exists_ofEntries hwritten
  have hline : (Entry.ofField s v).line? r "" [] = .ok (some (.record fields)) :=
    Entry.line?_eq_ok_iff.2 ⟨.text "", hlogger, by rw [hfields]; rfl⟩
  refine ⟨.record fields, ?_, ?_⟩
  · have hnamed : (Entry.ofField s v).isWellNamed = true := by
      simpa [Entry.isWellNamed, Entry.ofField] using hreserved
    rw [lines, if_pos hnamed, hline]
    rfl
  · intro h
    have hmem : (s, r.redact v) ∈ (Entry.ofField s v).namedFields r "" [] (.text "") :=
      hshown ▸ Entry.mem_namedFields_ofField hfree
    exact ((Entry.masked_record_iff hfields).1 h s _ hmem j hj).2

/-- **The lines of a run are masked if and only if what they show without having redacted it is.** -/
theorem masked_lines_iff (hr : r.Spares)
    (hplain : ∀ name ∈ Entry.stampNames, r.isSensitive name = false)
    {context : List (String × Value)} (hcontext : (context.map (·.1)).Nodup) {least : Nat}
    {entries : List Entry} {stackAt : Entry → String} {ls : List Json}
    (hls : lines r least context entries stackAt = .ok ls) :
    (∀ j ∈ ls, j.Masked r) ↔ ∀ e ∈ entries, least ≤ e.severity.rank →
      (∃ j, e.line? r (stackAt e) context = .ok (some j)) →
        ∀ name v, e.Unredacted r (stackAt e) context name v → r.MaskedUnder name v := by
  constructor
  · rintro h e he hrank ⟨j, hj⟩
    have hmem : j ∈ ls := (mem_lines hls).2 ⟨e, he, hrank, hj⟩
    exact (Entry.masked_line_iff hr hplain hcontext hj).1 (h j hmem)
  · intro h j hmem
    obtain ⟨e, he, hrank, hj⟩ := (mem_lines hls).1 hmem
    exact (Entry.masked_line_iff hr hplain hcontext hj).2 (h e he hrank ⟨j, hj⟩)

end Log

end Listing
