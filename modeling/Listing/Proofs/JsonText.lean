import Mathlib.Data.Bool.AllAny
import Mathlib.Data.List.Basic
import Mathlib.Data.List.Nodup
import Listing.Json.Reader
import Listing.Json.Writer
import Listing.Proofs.Octets
import Listing.Proofs.PutEntries
import Listing.Proofs.WrittenFloats

/-!
# Structured text that is read back

Structured text written in compact style is read back as the data it was written from
(`Json.readChars_chars`): quoted texts through their escapes and surrogate pairs, integers that are
not too long, lists and records nested no deeper than the reader follows. A floating-point number
comes back as what its own text is read as (`Json.reread`).
-/

set_option autoImplicit false
namespace Listing
open Text

namespace Json

/-! ## Quoted texts -/

/-- The units of UTF-16 of a character. -/
def units (c : Char) : List Nat :=
  if c.toNat < 0x10000 then [c.toNat]
  else [0xD800 + (c.toNat - 0x10000) / 1024, 0xDC00 + (c.toNat - 0x10000) % 1024]

theorem hexDigit?_digitChar :
    ∀ d < 16, (digitChar d).toNat < 128 ∧ hexDigit? (digitChar d) = some d := by decide

theorem unit?_digitChar {p q r s : Nat} (hp : p < 16) (hq : q < 16) (hr : r < 16) (hs : s < 16) :
    unit? (digitChar p) (digitChar q) (digitChar r) (digitChar s) =
      some (((p * 16 + q) * 16 + r) * 16 + s) := by
  unfold unit?
  simp [hexDigit?_digitChar p hp, hexDigit?_digitChar q hq, hexDigit?_digitChar r hr,
    hexDigit?_digitChar s hs]

theorem readUnits_unitEscape {n : Nat} (hn : n < 0x10000) {rest tail : List Char} {ns : List Nat}
    (h : readUnits rest = .ok (ns, tail)) :
    readUnits (unitEscape n ++ rest) = .ok (n :: ns, tail) := by
  -- the four digits of the escape are those of `n` to the base sixteen
  have hu := unit?_digitChar (p := n / 16 / 16 / 16 % 16) (q := n / 16 / 16 % 16)
    (r := n / 16 % 16) (s := n % 16) (by omega) (by omega) (by omega) (by omega)
  have hv : ((n / 16 / 16 / 16 % 16 * 16 + n / 16 / 16 % 16) * 16 + n / 16 % 16) * 16 + n % 16 =
      n := by
    omega
  rw [hv] at hu
  simp only [unitEscape, paddedHex, List.nil_append, List.cons_append, readUnits, hu, h]
  rfl

theorem toNat_lt (c : Char) : c.toNat < 0x110000 := by
  have := c.valid
  rcases this with h | h
  · have : c.toNat < 0xD800 := h
    omega
  · exact h.2

theorem readUnits_charEscape (c : Char) {rest tail : List Char} {ns : List Nat}
    (h : readUnits rest = .ok (ns, tail)) :
    readUnits (charEscape c.toNat ++ rest) = .ok (units c ++ ns, tail) := by
  unfold charEscape units
  by_cases hn : c.toNat < 0x10000
  · rw [if_pos hn, if_pos hn]
    exact readUnits_unitEscape hn h
  -- beyond the basic plane there are two escapes, one for each surrogate
  · have hc := toNat_lt c
    rw [if_neg hn, if_neg hn, List.append_assoc]
    exact readUnits_unitEscape (by omega) (readUnits_unitEscape (by omega) h)

theorem units_of_lt {c : Char} (h : c.toNat < 0x10000) : units c = [c.toNat] := by
  rw [units, if_pos h]

theorem readUnits_escape {e c : Char} (he : e ≠ 'u') (hc : escaped? e = some c)
    (hlt : c.toNat < 0x10000) {rest tail : List Char} {ns : List Nat}
    (h : readUnits rest = .ok (ns, tail)) :
    readUnits ('\\' :: e :: rest) = .ok (units c ++ ns, tail) := by
  rw [readUnits]
  · simp only [hc, h, units_of_lt hlt]
    rfl
  · intro a b c d rest' heq
    exact absurd heq he

theorem readUnits_bare {c : Char} (hq : c.toNat ≠ 34) (hb : c ≠ '\\') (hlo : ¬ c.toNat < 32)
    (hlt : c.toNat < 0x10000) {rest tail : List Char} {ns : List Nat}
    (h : readUnits rest = .ok (ns, tail)) :
    readUnits (c :: rest) = .ok (units c ++ ns, tail) := by
  have hctl : ¬ (c.toNat < 32 ∨ c = '\\') := by
    rintro (h32 | hbs)
    · exact hlo h32
    · exact hb hbs
  rw [readUnits, if_neg hq, if_neg hctl, h, units_of_lt hlt]
  · rfl
  · intro a b c' d rest' heq
    exact absurd heq hb
  · intro e rest' heq
    exact absurd heq hb

/-- A character within quotes is read as its units. -/
theorem readUnits_writeChar (c : Char) {rest tail : List Char} {ns : List Nat}
    (h : readUnits rest = .ok (ns, tail)) :
    readUnits (writeChar true c ++ rest) = .ok (units c ++ ns, tail) := by
  -- the writer compares numbers, so every named escape stands for one character
  have named : ∀ d : Char, c.toNat = d.toNat → c = d := fun d hd => Char.toNat_inj.1 hd
  simp only [writeChar]
  split_ifs with hq hn hr ht hb hf hx
  · rcases hq with hq | hq
    · obtain rfl := named '"' hq
      exact readUnits_escape (e := '"') (by decide) rfl (by decide) h
    · obtain rfl := named '\\' hq
      exact readUnits_escape (e := '\\') (by decide) rfl (by decide) h
  · obtain rfl := named '\n' hn
    exact readUnits_escape (e := 'n') (by decide) rfl (by decide) h
  · obtain rfl := named '\r' hr
    exact readUnits_escape (e := 'r') (by decide) rfl (by decide) h
  · obtain rfl := named '\t' ht
    exact readUnits_escape (e := 't') (by decide) rfl (by decide) h
  · obtain rfl := named (Char.ofNat 8) hb
    exact readUnits_escape (e := 'b') (by decide) rfl (by decide) h
  · obtain rfl := named (Char.ofNat 12) hf
    exact readUnits_escape (e := 'f') (by decide) rfl (by decide) h
  -- neither named nor plain: escaped by its number
  · exact readUnits_charEscape c h
  -- written as it is: no quote, no backslash, and not below the blank
  · simp only [not_or, true_and] at hq hx
    refine readUnits_bare hq.1 ?_ hx.1 (by omega) h
    intro hbs
    exact hq.2 (by rw [hbs]; rfl)

theorem readUnits_flatMap_writeChar (cs rest : List Char) :
    readUnits (cs.flatMap (writeChar true) ++ '"' :: rest) = .ok (cs.flatMap units, rest) := by
  induction cs with
  | nil => simp [readUnits]
  | cons c cs ih =>
    rw [List.flatMap_cons, List.append_assoc, List.flatMap_cons]
    exact readUnits_writeChar c ih

theorem joinUnits_cons {n : Nat} (h : ¬ (0xD800 ≤ n ∧ n ≤ 0xDFFF)) (ns : List Nat) :
    joinUnits (n :: ns) = Char.ofNat n :: joinUnits ns := by
  cases ns with
  | nil => simp only [joinUnits, charAt, if_neg h]
  | cons m ns =>
    have hn : ¬ (0xD800 ≤ n ∧ n ≤ 0xDBFF ∧ 0xDC00 ≤ m ∧ m ≤ 0xDFFF) := by omega
    rw [joinUnits, if_neg hn, charAt, if_neg h]

theorem joinUnits_flatMap_units (cs : List Char) : joinUnits (cs.flatMap units) = cs := by
  induction cs with
  | nil => rfl
  | cons c cs ih =>
    rw [List.flatMap_cons]
    by_cases hn : c.toNat < 0x10000
    -- a character of the basic plane is no surrogate
    · have hs : ¬ (0xD800 ≤ c.toNat ∧ c.toNat ≤ 0xDFFF) := by
        rcases c.valid with h | h
        · have : c.toNat < 0xD800 := h
          omega
        · have : 0xDFFF < c.toNat := h.1
          omega
      rw [units_of_lt hn, List.singleton_append, joinUnits_cons hs, ih, Char.ofNat_toNat]
    -- any other character is joined from its two surrogates again
    · have hc := toNat_lt c
      have hpair : 0x10000 + (0xD800 + (c.toNat - 0x10000) / 1024 - 0xD800) * 1024 +
          (0xDC00 + (c.toNat - 0x10000) % 1024 - 0xDC00) = c.toNat := by omega
      rw [units, if_neg hn, List.cons_append, List.singleton_append, joinUnits, if_pos (by omega),
        ih, hpair, Char.ofNat_toNat]

/-- A quoted text reads as the text. -/
theorem readQuoted_writeText (s : String) (rest : List Char) :
    readQuoted (s.toList.flatMap (writeChar true) ++ '"' :: rest) = .ok (s, rest) := by
  rw [readQuoted, readUnits_flatMap_writeChar]
  show Except.ok (String.ofList (joinUnits (s.toList.flatMap units)), rest) = _
  rw [joinUnits_flatMap_units, String.ofList_toList]

/-! ## Integers -/

/-- Nothing follows, or what ends a value inside a list or a record. -/
def Stops (rest : List Char) : Prop :=
  ∀ c ∈ rest.head?, c ∈ [',', ']', Char.ofNat 125]

theorem stops_nil : Stops [] := by
  intro c hc
  simp at hc

theorem stops_cons {c : Char} (h : c ∈ [',', ']', Char.ofNat 125]) (rest : List Char) :
    Stops (c :: rest) := by
  intro d hd
  simp only [List.head?_cons, Option.mem_def, Option.some.injEq] at hd
  exact hd ▸ h

theorem Stops.cases {rest : List Char} (h : Stops rest) :
    rest = [] ∨ ∃ tail, rest = ',' :: tail ∨ rest = ']' :: tail ∨ rest = Char.ofNat 125 :: tail := by
  cases rest with
  | nil => exact Or.inl rfl
  | cons c tail =>
      have hc := h c rfl
      simp only [List.mem_cons, List.not_mem_nil, or_false] at hc
      refine Or.inr ⟨tail, ?_⟩
      rcases hc with rfl | rfl | rfl
      · exact Or.inl rfl
      · exact Or.inr (Or.inl rfl)
      · exact Or.inr (Or.inr rfl)

theorem readFraction_of_stops {rest : List Char} (h : Stops rest) :
    readFraction rest = ([], rest) := by
  rcases h.cases with rfl | ⟨tail, rfl | rfl | rfl⟩ <;> rfl

theorem readPower_of_stops {rest : List Char} (h : Stops rest) : readPower rest = ([], rest) := by
  rcases h.cases with rfl | ⟨tail, rfl | rfl | rfl⟩ <;> rfl

/-- What ends a value is no digit. -/
theorem Stops.isPlainDigit {rest : List Char} (h : Stops rest) :
    ∀ c ∈ rest.head?, isPlainDigit c = false := by
  intro c hc
  have hmem := h c hc
  simp only [List.mem_cons, List.not_mem_nil, or_false] at hmem
  rcases hmem with rfl | rfl | rfl <;> rfl

theorem spanDigits_append {ds rest : List Char} (hds : ∀ c ∈ ds, isPlainDigit c = true)
    (h : ∀ c ∈ rest.head?, isPlainDigit c = false) : spanDigits (ds ++ rest) = (ds, rest) := by
  induction ds with
  | nil =>
      cases rest with
      | nil => rfl
      | cons c rest =>
          rw [List.nil_append, spanDigits, List.takeWhile_cons_of_neg, List.dropWhile_cons_of_neg]
          all_goals exact Bool.eq_false_iff.1 (h c rfl)
  | cons d ds ih =>
      have hd : isPlainDigit d = true := hds d (by simp)
      have htail := ih (fun c hc => hds c (by simp [hc]))
      simp only [spanDigits, Prod.mk.injEq] at htail ⊢
      rw [List.cons_append, List.takeWhile_cons_of_pos hd, List.dropWhile_cons_of_pos hd,
        htail.1, htail.2]
      exact ⟨rfl, rfl⟩

/-- A whole part is read up to the first character that is no digit. -/
theorem readWhole_append {whole rest : List Char} (hwhole : Binary64.IsWhole whole)
    (h : ∀ c ∈ rest.head?, isPlainDigit c = false) : readWhole (whole ++ rest) = (whole, rest) := by
  unfold readWhole
  split
  -- the reader takes a leading zero for the whole part, and it is
  · next tail heq =>
      obtain ⟨d, ds, rfl⟩ := List.exists_cons_of_ne_nil hwhole.ne_nil
      rw [List.cons_append, List.cons.injEq] at heq
      obtain ⟨rfl, rfl⟩ := heq
      obtain rfl := hwhole.leading ds rfl
      rfl
  · exact spanDigits_append hwhole.plain h

theorem isWhole_digits (n : Nat) : Binary64.IsWhole (digits n) := by
  rcases Nat.eq_zero_or_pos n with rfl | hpos
  · rw [digits_zero]
    exact Binary64.isWhole_zero
  · exact Binary64.isWhole_of_digits hpos (isPlainDigit_of_mem_digits n) (digits_ne_nil n) rfl

/-- The digits of a number that is not too long read as the number with the sign. -/
theorem readNumber_digits (negative : Bool) {n : Nat} (hn : Decimal.width n ≤ digitLimit)
    {rest : List Char} (h : Stops rest) :
    readNumber negative (digits n ++ rest) = .ok (.int (if negative then -n else n), rest) := by
  have hne : (digits n).isEmpty = false := by
    rw [List.isEmpty_eq_false_iff]
    exact digits_ne_nil n
  unfold readNumber
  rw [readWhole_append (isWhole_digits n) h.isPlainDigit]
  simp only [hne, readFraction_of_stops h, readPower_of_stops h, readInteger_digits hn]
  rfl

theorem readScalar_of_isPlainDigit {c : Char} (h : isPlainDigit c = true) (rest : List Char) :
    readScalar (c :: rest) = readNumber false (c :: rest) := by
  have hother : ∀ d : Char, isPlainDigit d = false → ∀ tail, c :: rest ≠ d :: tail := by
    intro d hd tail heq
    rw [(List.cons.inj heq).1, hd] at h
    exact Bool.false_ne_true h
  unfold readScalar
  split
  · next heq => exact absurd heq (hother 'n' (by decide) _)
  · next heq => exact absurd heq (hother 't' (by decide) _)
  · next heq => exact absurd heq (hother 'f' (by decide) _)
  · next heq => exact absurd heq (hother 'N' (by decide) _)
  · next heq => exact absurd heq (hother 'I' (by decide) _)
  · next heq => exact absurd heq (hother '-' (by decide) _)
  · next heq =>
      obtain ⟨rfl, rfl⟩ := List.cons.inj heq
      have hquote : c.toNat ≠ 34 := by
        have hc := bounds_of_isPlainDigit h
        omega
      rw [if_neg hquote]
  · next heq => exact absurd heq (List.cons_ne_nil c rest)

/-! ## Floating-point numbers -/

/-- What may follow a fraction is no digit and no point. -/
theorem head_power {power rest : List Char} (hpower : Binary64.IsPower power) (h : Stops rest) :
    ∀ c ∈ (power ++ rest).head?, isPlainDigit c = false ∧ c ≠ '.' := by
  rcases hpower with rfl | ⟨sign, ds, rfl, -⟩
  · intro c hc
    refine ⟨h.isPlainDigit c hc, ?_⟩
    rintro rfl
    exact absurd (h '.' hc) (by decide)
  · intro c hc
    obtain rfl : 'e' = c := by simpa using hc
    exact ⟨rfl, by decide⟩

/-- What may follow a whole part is no digit. -/
theorem head_fraction {fraction rest : List Char} (hfraction : Binary64.IsFraction fraction)
    (h : ∀ c ∈ rest.head?, isPlainDigit c = false ∧ c ≠ '.') :
    ∀ c ∈ (fraction ++ rest).head?, isPlainDigit c = false := by
  rcases hfraction with rfl | ⟨ds, rfl, -⟩
  · exact fun c hc => (h c hc).1
  · intro c hc
    obtain rfl : '.' = c := by simpa using hc
    rfl

theorem readFraction_append {fraction rest : List Char} (hfraction : Binary64.IsFraction fraction)
    (h : ∀ c ∈ rest.head?, isPlainDigit c = false ∧ c ≠ '.') :
    readFraction (fraction ++ rest) = (fraction, rest) := by
  rcases hfraction with rfl | ⟨ds, rfl, hne, hds⟩
  · rw [List.nil_append]
    unfold readFraction
    split
    · exact absurd rfl (h '.' rfl).2
    · rfl
  · have hspan := spanDigits_append hds fun c hc => (h c hc).1
    obtain ⟨d, ds, rfl⟩ := List.exists_cons_of_ne_nil hne
    rw [List.cons_append, readFraction, hspan]

theorem readPower_append {power rest : List Char} (hpower : Binary64.IsPower power)
    (h : Stops rest) : readPower (power ++ rest) = (power, rest) := by
  rcases hpower with rfl | ⟨sign, ds, rfl, hsign, hne, hds⟩
  · exact readPower_of_stops h
  · have hspan := spanDigits_append hds h.isPlainDigit
    obtain ⟨d, ds, rfl⟩ := List.exists_cons_of_ne_nil hne
    rcases hsign with rfl | rfl
    · simp only [List.cons_append] at hspan ⊢
      simp only [readPower, beq_self_eq_true, Bool.true_or, if_true, hspan]
      rfl
    · simp only [List.cons_append] at hspan ⊢
      simp only [readPower, beq_self_eq_true, Bool.true_or, if_true, hspan]
      rfl

/-- A numeral is read up to what ends it, as the number that all of it stands for. -/
theorem readNumber_numeral {whole fraction power rest : List Char}
    (h : Binary64.IsNumeral whole fraction power) (hrest : Stops rest) {negative : Bool}
    {x : Binary64}
    (hx : Binary64.readChars (Decimal.signChars negative ++ (whole ++ (fraction ++ power))) =
      some x) :
    readNumber negative (whole ++ (fraction ++ (power ++ rest))) = .ok (.float x, rest) := by
  have hpower := head_power h.isPower hrest
  have hwhole : whole.isEmpty = false := List.isEmpty_eq_false_iff.2 h.isWhole.ne_nil
  -- a fraction or a power makes the number inexact
  have hinexact : (fraction.isEmpty && power.isEmpty) = false := by
    rw [Bool.and_eq_false_iff, List.isEmpty_eq_false_iff, List.isEmpty_eq_false_iff]
    exact h.inexact
  unfold readNumber
  rw [readWhole_append h.isWhole (head_fraction h.isFraction hpower)]
  simp only [hwhole, readFraction_append h.isFraction hpower, readPower_append h.isPower hrest,
    hinexact, Bool.false_eq_true, if_false]
  rw [Decimal.signChars] at hx
  rw [List.append_assoc, List.append_assoc, hx]

/-! ## Values -/

mutual

/-- A value with every floating-point number replaced by what its text is read as. -/
def reread : Json → Json
  | float x => float x.reread
  | list items => list (rereadItems items)
  | record fields => record (rereadFields fields)
  | v => v

/-- Items with every floating-point number replaced. -/
def rereadItems : List Json → List Json
  | [] => []
  | v :: rest => reread v :: rereadItems rest

/-- Fields with every floating-point number replaced. -/
def rereadFields : List (String × Json) → List (String × Json)
  | [] => []
  | (name, v) :: rest => (name, reread v) :: rereadFields rest

end

theorem length_rereadItems (items : List Json) : (rereadItems items).length = items.length := by
  induction items with
  | nil => rfl
  | cons v items ih => rw [rereadItems, List.length_cons, List.length_cons, ih]

theorem names_rereadFields (fields : List (String × Json)) :
    (rereadFields fields).map (·.1) = fields.map (·.1) := by
  induction fields with
  | nil => rfl
  | cons f fields ih => rw [rereadFields, List.map_cons, List.map_cons, ih]

mutual

/-- The value has a written form that is read where as many levels are left as there is room: no
integer that is too long, distinct names in every record, and a level for each nesting. -/
def Readable (room : Nat) : Json → Prop
  | null | bool _ | float _ | text _ => True
  | int i => Decimal.width i.natAbs ≤ digitLimit
  | list items => 0 < room ∧ ReadableItems (room - 1) items
  | record fields => 0 < room ∧ (fields.map (·.1)).Nodup ∧ ReadableFields (room - 1) fields

/-- Every item is readable. -/
def ReadableItems (room : Nat) : List Json → Prop
  | [] => True
  | v :: rest => Readable room v ∧ ReadableItems room rest

/-- The value of every field is readable. -/
def ReadableFields (room : Nat) : List (String × Json) → Prop
  | [] => True
  | (_, v) :: rest => Readable room v ∧ ReadableFields room rest

end

/-- The characters of a value in compact style. -/
def chars (v : Json) : List Char :=
  (write compact v).toList

/-- The characters of items, with commas between them. -/
def itemsChars (items : List Json) : List Char :=
  (joinWith "," (writeAll compact items)).toList

/-- The characters of fields, with commas between them. -/
def fieldsChars (fields : List (String × Json)) : List Char :=
  (joinWith "," (writeFields compact fields)).toList

/-- The characters of a text in quotes. -/
def quotedChars (s : String) : List Char :=
  '"' :: (s.toList.flatMap (writeChar true) ++ ['"'])

theorem chars_text (s : String) : chars (.text s) = quotedChars s := by
  simp [chars, write, writeText, compact, quotedChars]

theorem chars_int (i : Int) : chars (.int i) = integerChars i := by
  simp [chars, write, integerText]

theorem chars_float (x : Binary64) : chars (.float x) = (writeFloat x).toList := by
  simp [chars, write]

theorem chars_list (items : List Json) :
    chars (.list items) = '[' :: (itemsChars items ++ [']']) := by
  simp [chars, write, itemsChars, compact]

theorem chars_record (fields : List (String × Json)) :
    chars (.record fields) = Char.ofNat 123 :: (fieldsChars fields ++ [Char.ofNat 125]) := by
  simp [chars, write, fieldsChars, compact]

theorem itemsChars_singleton (v : Json) : itemsChars [v] = chars v := rfl

theorem itemsChars_cons_cons (v w : Json) (rest : List Json) :
    itemsChars (v :: w :: rest) = chars v ++ ',' :: itemsChars (w :: rest) := by
  simp [itemsChars, writeAll, joinWith, chars]

theorem fieldsChars_singleton (name : String) (v : Json) :
    fieldsChars [(name, v)] = quotedChars name ++ ':' :: chars v := by
  simp [fieldsChars, writeFields, joinWith, chars, writeText, compact, quotedChars]

theorem fieldsChars_cons_cons (name : String) (v : Json) (f : String × Json)
    (rest : List (String × Json)) :
    fieldsChars ((name, v) :: f :: rest) =
      quotedChars name ++ ':' :: chars v ++ ',' :: fieldsChars (f :: rest) := by
  simp [fieldsChars, writeFields, joinWith, chars, writeText, compact, quotedChars]

/-- A value starts with a character that is neither a blank nor the end of a list. -/
def Opens (cs : List Char) : Prop :=
  ∃ c rest, cs = c :: rest ∧ c ∉ [' ', '\t', '\n', '\r', ']']

theorem opens_cons {c : Char} (h : c ∉ [' ', '\t', '\n', '\r', ']']) (rest : List Char) :
    Opens (c :: rest) :=
  ⟨c, rest, rfl, h⟩

theorem Opens.append {cs : List Char} (h : Opens cs) (tail : List Char) : Opens (cs ++ tail) := by
  obtain ⟨c, rest, rfl, hc⟩ := h
  exact ⟨c, rest ++ tail, rfl, hc⟩

theorem Opens.skip {cs : List Char} (h : Opens cs) : skip cs = cs := by
  obtain ⟨c, rest, rfl, hc⟩ := h
  simp only [List.mem_cons, List.not_mem_nil, or_false, not_or] at hc
  simp [Json.skip, hc.1, hc.2.1, hc.2.2.1, hc.2.2.2.1]

theorem opens_of_isPlainDigit {cs : List Char} (h : ∀ c ∈ cs, isPlainDigit c = true)
    (hne : cs ≠ []) : Opens cs := by
  obtain ⟨d, ds, rfl⟩ := List.exists_cons_of_ne_nil hne
  have hplain : isPlainDigit d = true := h d (by simp)
  refine opens_cons ?_ ds
  intro hmem
  simp only [List.mem_cons, List.not_mem_nil, or_false] at hmem
  rcases hmem with rfl | rfl | rfl | rfl | rfl <;> exact absurd hplain (by decide)

theorem opens_digits (n : Nat) : Opens (digits n) :=
  opens_of_isPlainDigit (isPlainDigit_of_mem_digits n) (digits_ne_nil n)

/-- A finite number is written as a sign and a numeral. -/
theorem exists_writeFloat (negative : Bool) (m : Nat) (e : Int) : ∃ whole fraction power,
    (writeFloat (.finite negative m e)).toList =
      Decimal.signChars negative ++ (whole ++ (fraction ++ power)) ∧
    Binary64.IsNumeral whole fraction power := by
  obtain ⟨whole, fraction, power, heq, hnumeral⟩ := Binary64.exists_numeral m e
  refine ⟨whole, fraction, power, ?_, hnumeral⟩
  rw [← heq]
  exact String.toList_ofList

theorem opens_writeFloat (x : Binary64) : Opens (writeFloat x).toList := by
  cases x with
  | nan => exact opens_cons (by decide) _
  | infinite negative => cases negative <;> exact opens_cons (by decide) _
  | finite negative m e =>
      obtain ⟨whole, fraction, power, htext, hnumeral⟩ := exists_writeFloat negative m e
      rw [htext]
      cases negative with
      | true => exact opens_cons (by decide) _
      | false => exact (opens_of_isPlainDigit hnumeral.isWhole.plain hnumeral.isWhole.ne_nil).append _

theorem opens_chars (v : Json) : Opens (chars v) := by
  cases v with
  | null => exact opens_cons (by decide) _
  | bool b => cases b <;> exact opens_cons (by decide) _
  | int i =>
      rw [chars_int, integerChars]
      split
      · exact opens_cons (by decide) _
      · exact opens_digits _
  | float x =>
      rw [chars_float]
      exact opens_writeFloat x
  | text s =>
      rw [chars_text]
      exact opens_cons (by decide) _
  | list items =>
      rw [chars_list]
      exact opens_cons (by decide) _
  | record fields =>
      rw [chars_record]
      exact opens_cons (by decide) _

/-- What starts neither a list nor a record is read as a scalar. -/
theorem readValue_scalar {c : Char} (hlist : c ≠ '[') (hrecord : c.toNat ≠ 123)
    (limit depth fuel : Nat) (rest : List Char) :
    readValue limit depth (fuel + 1) (c :: rest) = readScalar (c :: rest) := by
  rw [readValue]
  · rw [if_neg hrecord]
  · exact hlist

theorem readScalar_minus {d : Char} (h : isPlainDigit d = true) (rest : List Char) :
    readScalar ('-' :: d :: rest) = readNumber true (d :: rest) := by
  -- a digit follows the sign, so it does not belong to `-Infinity`
  have hword : after? "Infinity" (d :: rest) = none := by
    have hI : ('I' == d) = false := by
      rw [beq_eq_false_iff_ne]
      rintro rfl
      exact absurd h (by decide)
    have hI' : "Infinity".toList = 'I' :: "nfinity".toList := rfl
    rw [after?, hI', List.isPrefixOf, hI]
    rfl
  unfold readScalar
  simp only [hword]

theorem readScalar_integerChars {i : Int} (hi : Decimal.width i.natAbs ≤ digitLimit)
    {rest : List Char} (h : Stops rest) :
    readScalar (integerChars i ++ rest) = .ok (.int i, rest) := by
  have hplain := isPlainDigit_of_mem_digits i.natAbs
  cases hd : digits i.natAbs with
  | nil => exact absurd hd (digits_ne_nil _)
  | cons d ds =>
      have hdigit : isPlainDigit d = true := hplain d (by simp [hd])
      by_cases hneg : i < 0
      · have hnumber := readNumber_digits true hi h
        have hval : -(i.natAbs : Int) = i := by omega
        rw [if_pos rfl, hval, hd] at hnumber
        rw [integerChars, if_pos hneg, hd, List.cons_append, List.cons_append,
          readScalar_minus hdigit]
        exact hnumber
      · have hnumber := readNumber_digits false hi h
        have hval : (i.natAbs : Int) = i := by omega
        rw [if_neg Bool.false_ne_true, hval, hd] at hnumber
        rw [integerChars, if_neg hneg, hd, List.cons_append, readScalar_of_isPlainDigit hdigit]
        exact hnumber

theorem readScalar_quotedChars (s : String) (rest : List Char) :
    readScalar (quotedChars s ++ rest) = .ok (.text s, rest) := by
  have hquoted := readQuoted_writeText s rest
  show (readQuoted (s.toList.flatMap (writeChar true) ++ ['"'] ++ rest) >>= fun (found : _ × _) =>
    (.ok (text found.1, found.2) : Except ReadFault (Json × List Char))) = _
  rw [List.append_assoc, List.singleton_append, hquoted]
  rfl

theorem ne_of_isPlainDigit {d : Char} (h : isPlainDigit d = true) : d ≠ '[' ∧ d.toNat ≠ 123 := by
  have hval := bounds_of_isPlainDigit h
  refine ⟨?_, by omega⟩
  rintro rfl
  exact absurd h (by decide)

theorem readValue_int {i : Int} (hi : Decimal.width i.natAbs ≤ digitLimit)
    (limit depth fuel : Nat) {rest : List Char} (h : Stops rest) :
    readValue limit depth (fuel + 1) (integerChars i ++ rest) = .ok (.int i, rest) := by
  have hread := readScalar_integerChars hi h
  have hplain := isPlainDigit_of_mem_digits i.natAbs
  cases hd : integerChars i with
  | nil =>
      rw [integerChars] at hd
      split at hd
      · exact absurd hd (List.cons_ne_nil _ _)
      · exact absurd hd (digits_ne_nil _)
  | cons c cs =>
      rw [hd] at hread
      rw [List.cons_append] at hread ⊢
      -- a sign or a digit comes first, which opens neither a list nor a record
      have hc : c ≠ '[' ∧ c.toNat ≠ 123 := by
        rw [integerChars] at hd
        split at hd
        · rw [← (List.cons.inj hd).1]
          decide
        · exact ne_of_isPlainDigit (hplain c (by simp [hd]))
      rw [readValue_scalar hc.1 hc.2, hread]

/-- A finite number is read up to what ends it. -/
theorem readScalar_numeral {negative : Bool} {whole fraction power rest : List Char}
    (h : Binary64.IsNumeral whole fraction power) (hrest : Stops rest) {x : Binary64}
    (hx : Binary64.readChars (Decimal.signChars negative ++ (whole ++ (fraction ++ power))) =
      some x) :
    readScalar (Decimal.signChars negative ++ (whole ++ (fraction ++ (power ++ rest)))) =
      .ok (.float x, rest) := by
  have hnumber := readNumber_numeral h hrest hx
  obtain ⟨d, ds, hd⟩ := List.exists_cons_of_ne_nil h.isWhole.ne_nil
  have hdigit : isPlainDigit d = true := h.isWhole.plain d (by simp [hd])
  rw [hd, List.cons_append] at hnumber ⊢
  cases negative with
  | true => exact (readScalar_minus hdigit _).trans hnumber
  | false => exact (readScalar_of_isPlainDigit hdigit _).trans hnumber

/-- **A floating-point number is read as what its text is read as.** -/
theorem readValue_float (x : Binary64) (limit depth fuel : Nat) {rest : List Char}
    (h : Stops rest) : readValue limit depth (fuel + 1) ((writeFloat x).toList ++ rest) =
      .ok (.float x.reread, rest) := by
  cases x with
  | nan => exact readValue_scalar (by decide) (by decide) limit depth fuel _
  | infinite negative =>
      cases negative
      · exact readValue_scalar (by decide) (by decide) limit depth fuel _
      · exact readValue_scalar (by decide) (by decide) limit depth fuel _
  | finite negative m e =>
      obtain ⟨whole, fraction, power, htext, hnumeral⟩ := exists_writeFloat negative m e
      have hx := Binary64.readChars_chars (.finite negative m e)
      rw [show Binary64.chars (.finite negative m e) = _ from String.toList_ofList.symm.trans htext]
        at hx
      have hread := readScalar_numeral hnumeral h hx
      rw [htext, List.append_assoc, List.append_assoc, List.append_assoc]
      -- a sign or a digit comes first, which opens neither a list nor a record
      cases negative with
      | true => exact (readValue_scalar (by decide) (by decide) limit depth fuel _).trans hread
      | false =>
          obtain ⟨d, ds, hd⟩ := List.exists_cons_of_ne_nil hnumeral.isWhole.ne_nil
          have hc := ne_of_isPlainDigit (hnumeral.isWhole.plain d (by simp [hd]))
          rw [hd] at hread ⊢
          exact (readValue_scalar hc.1 hc.2 limit depth fuel _).trans hread

theorem Opens.length_pos {cs : List Char} (h : Opens cs) : 0 < cs.length := by
  obtain ⟨c, rest, rfl, -⟩ := h
  exact Nat.succ_pos _

theorem opens_itemsChars (v : Json) (rest : List Json) : Opens (itemsChars (v :: rest)) := by
  cases rest with
  | nil => exact opens_chars v
  | cons w rest =>
      rw [itemsChars_cons_cons]
      exact (opens_chars v).append _

theorem opens_quotedChars (s : String) : Opens (quotedChars s) :=
  opens_cons (by decide) _

theorem opens_fieldsChars (f : String × Json) (rest : List (String × Json)) :
    Opens (fieldsChars (f :: rest)) := by
  obtain ⟨name, v⟩ := f
  cases rest with
  | nil =>
      rw [fieldsChars_singleton]
      exact (opens_quotedChars name).append _
  | cons g rest =>
      rw [fieldsChars_cons_cons, List.append_assoc]
      exact (opens_quotedChars name).append _

/-- A list of items that opens is read item by item. -/
theorem readValue_list {limit depth fuel : Nat} (hdepth : depth < limit) {body tail : List Char}
    (hbody : Opens body) {items : List Json}
    (h : readItems limit (depth + 1) fuel body = .ok (items, tail)) :
    readValue limit depth (fuel + 1) ('[' :: body) = .ok (.list items, tail) := by
  rw [readValue, if_neg (Nat.not_le.2 hdepth), hbody.skip]
  obtain ⟨c, cs, rfl, hc⟩ := hbody
  split
  -- a list that ends at once has no item that opens
  · next heq => exact absurd (List.cons.inj heq).1 (by rintro rfl; exact hc (by decide))
  · rw [h]
    rfl

/-- A record of fields that opens is read field by field. -/
theorem readValue_record {limit depth fuel : Nat} (hdepth : depth < limit) {body tail : List Char}
    (hbody : ∃ cs, body = '"' :: cs) {fields : List (String × Json)}
    (h : readFields limit (depth + 1) fuel body = .ok (fields, tail)) :
    readValue limit depth (fuel + 1) (Char.ofNat 123 :: body) =
      .ok (.record (Entries.ofList fields), tail) := by
  obtain ⟨cs, rfl⟩ := hbody
  have hskip : skip ('"' :: cs) = '"' :: cs := rfl
  rw [readValue]
  · rw [if_pos (by decide), if_neg (Nat.not_le.2 hdepth), hskip]
    simp only
    rw [if_neg (by decide), h]
    rfl
  · decide

/-- The last item of a list. -/
theorem readItems_last {limit depth fuel : Nat} {cs rest : List Char} {v : Json}
    (h : readValue limit depth fuel cs = .ok (v, ']' :: rest)) :
    readItems limit depth (fuel + 1) cs = .ok ([v], rest) := by
  rw [readItems, h]
  rfl

/-- An item before others. -/
theorem readItems_more {limit depth fuel : Nat} {cs more tail : List Char} {v : Json}
    {items : List Json}
    (h : readValue limit depth fuel cs = .ok (v, ',' :: more)) (hmore : Opens more)
    (hitems : readItems limit depth fuel more = .ok (items, tail)) :
    readItems limit depth (fuel + 1) cs = .ok (v :: items, tail) := by
  rw [readItems, h]
  show (readItems limit depth fuel (skip more) >>= fun (found : _ × _) =>
    (.ok (v :: found.1, found.2) : Except ReadFault (List Json × List Char))) = _
  rw [hmore.skip, hitems]
  rfl

theorem readQuoted_quotedChars (s : String) (rest : List Char) :
    ∃ body, quotedChars s ++ rest = '"' :: body ∧ readQuoted body = .ok (s, rest) := by
  refine ⟨s.toList.flatMap (writeChar true) ++ ['"'] ++ rest, rfl, ?_⟩
  rw [List.append_assoc]
  exact readQuoted_writeText s rest

/-- The last field of a record. -/
theorem readFields_last {limit depth fuel : Nat} {name : String} {cs rest : List Char} {v : Json}
    (hcs : Opens cs) (h : readValue limit depth fuel cs = .ok (v, Char.ofNat 125 :: rest)) :
    readFields limit depth (fuel + 1) (quotedChars name ++ ':' :: cs) =
      .ok ([(name, v)], rest) := by
  obtain ⟨body, hbody, hname⟩ := readQuoted_quotedChars name (':' :: cs)
  have hcolon : skip (':' :: cs) = ':' :: cs := rfl
  rw [hbody, readFields, if_neg (by decide), hname]
  simp only [bind, Except.bind, hcolon, hcs.skip, h]
  rfl

/-- A field before others. -/
theorem readFields_more {limit depth fuel : Nat} {name : String} {cs more tail : List Char}
    {v : Json} {fields : List (String × Json)} (hcs : Opens cs)
    (h : readValue limit depth fuel cs = .ok (v, ',' :: more)) (hmore : Opens more)
    (hfields : readFields limit depth fuel more = .ok (fields, tail)) :
    readFields limit depth (fuel + 1) (quotedChars name ++ ':' :: cs) =
      .ok ((name, v) :: fields, tail) := by
  obtain ⟨body, hbody, hname⟩ := readQuoted_quotedChars name (':' :: cs)
  have hcolon : skip (':' :: cs) = ':' :: cs := rfl
  have hcomma : skip (',' :: more) = ',' :: more := rfl
  rw [hbody, readFields, if_neg (by decide), hname]
  simp only [bind, Except.bind, hcolon, hcs.skip, h, hcomma, if_true, hmore.skip, hfields]
  rfl

-- Each value is read with as much fuel as twice its characters: a list and its first item take one
-- unit each for at least one character.
mutual

/-- A readable value is read back from its characters, whatever ends it. -/
theorem readValue_chars : ∀ (v : Json) (limit room depth fuel : Nat) (rest : List Char),
    Readable room v → depth + room ≤ limit → 2 * (chars v).length ≤ fuel → Stops rest →
    readValue limit depth fuel (chars v ++ rest) = .ok (v.reread, rest) := by
  intro v limit room depth fuel rest hv hroom hfuel hrest
  -- a value has at least one character, so there is fuel for one step
  have hpos := (opens_chars v).length_pos
  obtain ⟨fuel, rfl⟩ : ∃ n, fuel = n + 1 := ⟨fuel - 1, by omega⟩
  cases v with
  | null => exact readValue_scalar (by decide) (by decide) limit depth fuel _
  | bool b => cases b <;> exact readValue_scalar (by decide) (by decide) limit depth fuel _
  | int i =>
      rw [chars_int]
      exact readValue_int hv limit depth fuel hrest
  | float x =>
      rw [chars_float]
      exact readValue_float x limit depth fuel hrest
  | text s =>
      rw [chars_text]
      obtain ⟨body, hbody, -⟩ := readQuoted_quotedChars s rest
      have hread := readScalar_quotedChars s rest
      rw [hbody] at hread ⊢
      rw [readValue_scalar (by decide) (by decide), hread]
      rfl
  | list items =>
      rw [Readable] at hv
      have hdepth : depth < limit := by omega
      rw [chars_list] at hfuel ⊢
      cases items with
      | nil =>
          -- the end of the list is seen before any item is read
          show readValue limit depth (fuel + 1) ('[' :: ']' :: rest) = _
          rw [readValue, if_neg (Nat.not_le.2 hdepth)]
          rfl
      | cons w items =>
          have hopens := opens_itemsChars w items
          simp only [List.length_append, List.length_cons, List.length_nil] at hfuel
          have hitems := readItems_itemsChars (w :: items) limit (room - 1) (depth + 1) fuel rest
            hv.2 (by omega) (List.cons_ne_nil w items) (by omega)
          rw [List.cons_append, List.append_assoc, List.singleton_append]
          exact readValue_list hdepth (hopens.append _) hitems
  | record fields =>
      rw [Readable] at hv
      have hdepth : depth < limit := by omega
      rw [chars_record] at hfuel ⊢
      cases fields with
      | nil =>
          -- the end of the record is seen before any field is read
          show readValue limit depth (fuel + 1) (Char.ofNat 123 :: Char.ofNat 125 :: rest) = _
          rw [readValue]
          · rw [if_pos (by decide), if_neg (Nat.not_le.2 hdepth)]
            rfl
          · decide
      | cons f fields =>
          simp only [List.length_append, List.length_cons, List.length_nil] at hfuel
          have hfields := readFields_fieldsChars (f :: fields) limit (room - 1) (depth + 1) fuel
            rest hv.2.2 (by omega) (List.cons_ne_nil f fields) (by omega)
          -- the first field opens with the quote of its name
          have hquote : ∃ cs, fieldsChars (f :: fields) ++ Char.ofNat 125 :: rest = '"' :: cs := by
            obtain ⟨name, w⟩ := f
            cases fields with
            | nil => exact ⟨_, by rw [fieldsChars_singleton]; rfl⟩
            | cons g fields => exact ⟨_, by rw [fieldsChars_cons_cons]; rfl⟩
          have hnames := hv.2.1
          rw [← names_rereadFields] at hnames
          rw [List.cons_append, List.append_assoc, List.singleton_append,
            readValue_record hdepth hquote hfields, Entries.ofList_of_nodup hnames]
          rfl

/-- Readable items are read back up to the end of their list. -/
theorem readItems_itemsChars : ∀ (items : List Json) (limit room depth fuel : Nat)
    (rest : List Char), ReadableItems room items → depth + room ≤ limit → items ≠ [] →
    2 * (itemsChars items).length + 1 ≤ fuel →
    readItems limit depth fuel (itemsChars items ++ ']' :: rest) =
      .ok (rereadItems items, rest) := by
  intro items limit room depth fuel rest hitems hroom hne hfuel
  obtain ⟨fuel, rfl⟩ : ∃ n, fuel = n + 1 := ⟨fuel - 1, by omega⟩
  cases items with
  | nil => exact absurd rfl hne
  | cons v items =>
      rw [ReadableItems] at hitems
      cases items with
      | nil =>
          -- the end of the list stops the last item
          rw [itemsChars_singleton] at hfuel ⊢
          exact readItems_last (readValue_chars v limit room depth fuel _ hitems.1 hroom (by omega)
            (stops_cons (by decide) rest))
      | cons w items =>
          -- a comma stops every other item
          rw [itemsChars_cons_cons] at hfuel ⊢
          simp only [List.length_append, List.length_cons] at hfuel
          rw [List.append_assoc, List.cons_append]
          exact readItems_more (readValue_chars v limit room depth fuel _ hitems.1 hroom (by omega)
            (stops_cons (by decide) _)) ((opens_itemsChars w items).append _)
            (readItems_itemsChars (w :: items) limit room depth fuel rest hitems.2 hroom
              (List.cons_ne_nil w items)
              (by omega))

/-- Readable fields are read back up to the end of their record. -/
theorem readFields_fieldsChars : ∀ (fields : List (String × Json))
    (limit room depth fuel : Nat) (rest : List Char), ReadableFields room fields →
    depth + room ≤ limit → fields ≠ [] → 2 * (fieldsChars fields).length + 1 ≤ fuel →
    readFields limit depth fuel (fieldsChars fields ++ Char.ofNat 125 :: rest) =
      .ok (rereadFields fields, rest) := by
  intro fields limit room depth fuel rest hfields hroom hne hfuel
  obtain ⟨fuel, rfl⟩ : ∃ n, fuel = n + 1 := ⟨fuel - 1, by omega⟩
  cases fields with
  | nil => exact absurd rfl hne
  | cons f fields =>
      obtain ⟨name, v⟩ := f
      rw [ReadableFields] at hfields
      cases fields with
      | nil =>
          -- the end of the record stops the last field
          rw [fieldsChars_singleton] at hfuel ⊢
          simp only [List.length_append, List.length_cons] at hfuel
          rw [List.append_assoc, List.cons_append]
          exact readFields_last ((opens_chars v).append _)
            (readValue_chars v limit room depth fuel _ hfields.1 hroom (by omega)
              (stops_cons (by decide) rest))
      | cons g fields =>
          -- a comma stops every other field
          rw [fieldsChars_cons_cons] at hfuel ⊢
          simp only [List.length_append, List.length_cons] at hfuel
          rw [List.append_assoc, List.append_assoc, List.cons_append, List.cons_append]
          exact readFields_more ((opens_chars v).append _)
            (readValue_chars v limit room depth fuel _ hfields.1 hroom (by omega)
              (stops_cons (by decide) _))
            ((opens_fieldsChars g fields).append _)
            (readFields_fieldsChars (g :: fields) limit room depth fuel rest hfields.2 hroom
              (List.cons_ne_nil g fields) (by omega))

end

/-- **Structured text is read back.** -/
theorem readChars_chars {v : Json} {room limit : Nat} (h : Readable room v)
    (hroom : room ≤ limit) : readChars limit (chars v) = .ok v.reread := by
  have hread := readValue_chars v limit room 0 (2 * (chars v).length + 2) [] h (by omega)
    (by omega) stops_nil
  rw [List.append_nil] at hread
  rw [readChars, (opens_chars v).skip, hread]
  rfl

/-! ## Plain characters -/

theorem isPlain_digitChar : ∀ d < 16, IsPlain (digitChar d) := by
  unfold IsPlain
  decide

theorem isPlain_unitEscape (n : Nat) : ∀ c ∈ unitEscape n, IsPlain c := by
  intro c hc
  simp only [unitEscape, paddedHex, List.nil_append, List.cons_append, List.mem_cons,
    List.not_mem_nil, or_false] at hc
  rcases hc with rfl | rfl | rfl | rfl | rfl | rfl
  · exact ⟨by decide, by decide⟩
  · exact ⟨by decide, by decide⟩
  · exact isPlain_digitChar _ (Nat.mod_lt _ (by omega))
  · exact isPlain_digitChar _ (Nat.mod_lt _ (by omega))
  · exact isPlain_digitChar _ (Nat.mod_lt _ (by omega))
  · exact isPlain_digitChar _ (Nat.mod_lt _ (by omega))

theorem isPlain_charEscape (n : Nat) : ∀ c ∈ charEscape n, IsPlain c := by
  intro c hc
  unfold charEscape at hc
  split at hc
  · exact isPlain_unitEscape n c hc
  · rcases List.mem_append.1 hc with hc | hc
    · exact isPlain_unitEscape _ c hc
    · exact isPlain_unitEscape _ c hc

/-- Plain style writes every character by plain ones. -/
theorem isPlain_writeChar (c : Char) : ∀ d ∈ writeChar true c, IsPlain d := by
  have two : ∀ e : Char, IsPlain e → ∀ d ∈ ['\\', e], IsPlain d := by
    intro e he d hd
    simp only [List.mem_cons, List.not_mem_nil, or_false] at hd
    rcases hd with rfl | rfl
    · exact ⟨by decide, by decide⟩
    · exact he
  simp only [writeChar]
  split_ifs with hq hn hr ht hb hf hx
  -- the quote and the backslash are escaped by themselves
  · apply two c
    unfold IsPlain
    omega
  · exact two 'n' ⟨by decide, by decide⟩
  · exact two 'r' ⟨by decide, by decide⟩
  · exact two 't' ⟨by decide, by decide⟩
  · exact two 'b' ⟨by decide, by decide⟩
  · exact two 'f' ⟨by decide, by decide⟩
  · exact isPlain_charEscape c.toNat
  · intro d hd
    rw [List.mem_singleton] at hd
    simp only [not_or, true_and] at hx
    unfold IsPlain
    rw [hd]
    omega

theorem isPlain_quotedChars (s : String) : ∀ c ∈ quotedChars s, IsPlain c := by
  intro c hc
  simp only [quotedChars, List.mem_cons, List.mem_append, List.mem_flatMap, List.not_mem_nil,
    or_false] at hc
  rcases hc with rfl | ⟨d, -, hd⟩ | rfl
  · exact ⟨by decide, by decide⟩
  · exact isPlain_writeChar d c hd
  · exact ⟨by decide, by decide⟩

theorem isPlain_integerChars (i : Int) : ∀ c ∈ integerChars i, IsPlain c := by
  have hdigits : ∀ c ∈ digits i.natAbs, IsPlain c := by
    intro c hc
    have hval := bounds_of_isPlainDigit (isPlainDigit_of_mem_digits i.natAbs c hc)
    exact ⟨by omega, by omega⟩
  rw [integerChars]
  split
  · intro c hc
    rcases List.mem_cons.1 hc with rfl | hc
    · exact ⟨by decide, by decide⟩
    · exact hdigits c hc
  · exact hdigits

theorem isPlain_writeFloat (x : Binary64) : ∀ c ∈ (writeFloat x).toList, IsPlain c := by
  have hsign : ∀ negative, ∀ c ∈ Decimal.signChars negative, IsPlain c := by
    intro negative c hc
    cases negative with
    | true => exact List.mem_singleton.1 hc ▸ ⟨by decide, by decide⟩
    | false => exact absurd hc List.not_mem_nil
  intro c hc
  cases x with
  | nan => exact (List.all_iff_forall_prop (l := ['N', 'a', 'N'])).1 (by decide) c hc
  | infinite negative =>
      cases negative
      · exact (List.all_iff_forall_prop (l := "Infinity".toList)).1 (by decide) c hc
      · exact (List.all_iff_forall_prop (l := "-Infinity".toList)).1 (by decide) c hc
  | finite negative m e =>
      obtain ⟨whole, fraction, power, htext, hnumeral⟩ := exists_writeFloat negative m e
      rw [htext] at hc
      rcases List.mem_append.1 hc with hc | hc
      · exact hsign negative c hc
      · rcases hnumeral.mem hc with hc | hc
        · have hval := bounds_of_isPlainDigit hc
          exact ⟨by omega, by omega⟩
        · exact (List.all_iff_forall_prop (l := ['.', 'e', '+', '-'])).1 (by decide) c hc

mutual

/-- The characters of a value are plain. -/
theorem isPlain_chars : ∀ v : Json, ∀ c ∈ chars v, IsPlain c := by
  intro v c hc
  cases v with
  | null =>
      exact (List.all_iff_forall_prop (l := ['n', 'u', 'l', 'l'])).1 (by decide) c hc
  | bool b =>
      cases b
      · exact (List.all_iff_forall_prop (l := ['f', 'a', 'l', 's', 'e'])).1 (by decide) c hc
      · exact (List.all_iff_forall_prop (l := ['t', 'r', 'u', 'e'])).1 (by decide) c hc
  | int i =>
      rw [chars_int] at hc
      exact isPlain_integerChars i c hc
  | float x =>
      rw [chars_float] at hc
      exact isPlain_writeFloat x c hc
  | text s =>
      rw [chars_text] at hc
      exact isPlain_quotedChars s c hc
  | list items =>
      rw [chars_list, List.mem_cons, List.mem_append, List.mem_singleton] at hc
      rcases hc with rfl | hc | rfl
      · exact ⟨by decide, by decide⟩
      · exact isPlain_itemsChars items c hc
      · exact ⟨by decide, by decide⟩
  | record fields =>
      rw [chars_record, List.mem_cons, List.mem_append, List.mem_singleton] at hc
      rcases hc with rfl | hc | rfl
      · exact ⟨by decide, by decide⟩
      · exact isPlain_fieldsChars fields c hc
      · exact ⟨by decide, by decide⟩

/-- The characters of items are plain. -/
theorem isPlain_itemsChars : ∀ items : List Json, ∀ c ∈ itemsChars items, IsPlain c := by
  intro items c hc
  cases items with
  | nil => exact absurd hc (by simp [itemsChars, writeAll, joinWith])
  | cons v items =>
      cases items with
      | nil =>
          rw [itemsChars_singleton] at hc
          exact isPlain_chars v c hc
      | cons w items =>
          rw [itemsChars_cons_cons, List.mem_append, List.mem_cons] at hc
          rcases hc with hc | rfl | hc
          · exact isPlain_chars v c hc
          · exact ⟨by decide, by decide⟩
          · exact isPlain_itemsChars (w :: items) c hc

/-- The characters of fields are plain. -/
theorem isPlain_fieldsChars : ∀ fields : List (String × Json), ∀ c ∈ fieldsChars fields,
    IsPlain c := by
  intro fields c hc
  cases fields with
  | nil => exact absurd hc (by simp [fieldsChars, writeFields, joinWith])
  | cons f fields =>
      obtain ⟨name, v⟩ := f
      cases fields with
      | nil =>
          rw [fieldsChars_singleton, List.mem_append, List.mem_cons] at hc
          rcases hc with hc | rfl | hc
          · exact isPlain_quotedChars name c hc
          · exact ⟨by decide, by decide⟩
          · exact isPlain_chars v c hc
      | cons g fields =>
          rw [fieldsChars_cons_cons, List.append_assoc, List.mem_append, List.cons_append,
            List.mem_cons, List.mem_append, List.mem_cons] at hc
          rcases hc with hc | rfl | hc | rfl | hc
          · exact isPlain_quotedChars name c hc
          · exact ⟨by decide, by decide⟩
          · exact isPlain_chars v c hc
          · exact ⟨by decide, by decide⟩
          · exact isPlain_fieldsChars (g :: fields) c hc

end

/-- **Structured text is read back from its octets.** -/
theorem readOctets_write {v : Json} {room limit : Nat} (h : Readable room v)
    (hroom : room ≤ limit) : readOctets limit (encode (write compact v)) = .ok v.reread := by
  have hdecode : decode (encode (write compact v)) = some (chars v) :=
    decode_flatMap_encodeChar (chars v) (isPlain_chars v)
  rw [readOctets, hdecode]
  exact readChars_chars h hroom

end Json

end Listing
