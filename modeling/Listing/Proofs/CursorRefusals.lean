import Mathlib.Algebra.Order.Ring.Nat
import Listing.Proofs.SealedCursor

/-!
# Cursors that are not resumed

A cursor that is not resumed is rejected with a report of what is wrong with it, whoever made it,
with two exceptions, both in payloads that carry the right signature: text nested too deeply to be
read, and a floating-point key written as an integer that is out of range
(`Sealer.resume_reports_iff`). The integers in question are those that round to no finite number
(`Binary64.ofInt_eq_infinite_iff`).
-/

set_option autoImplicit false

namespace Listing

open Text

/-! ## Integers out of range -/

namespace Binary64

/-- The least integer that is rounded to an infinity: half a unit above the largest number. -/
def leastOverflow : Nat := 2 ^ 1024 - 2 ^ 970

/-- A quotient below the successor of an odd number is rounded to that successor exactly from half a
unit below it. -/
theorem roundQuotient_eq_succ_iff {n d q : Nat} (hd : 0 < d) (hodd : q % 2 = 1)
    (h : n < (q + 1) * d) : roundQuotient n d = q + 1 ↔ (2 * q + 1) * d ≤ 2 * n := by
  have hdiv := Nat.div_add_mod n d
  have hmod := Nat.mod_lt n hd
  have hexpand : (2 * q + 1) * d = 2 * (d * q) + d := by
    rw [Nat.add_mul, Nat.one_mul, Nat.mul_assoc, Nat.mul_comm q d]
  have hle : n / d ≤ q := Nat.lt_succ_iff.1 ((Nat.div_lt_iff_lt_mul hd).2 h)
  rw [hexpand, roundQuotient]
  rcases Nat.eq_or_lt_of_le hle with heq | hlt
  -- at the odd quotient the remainder decides, and a tie goes up
  · rw [heq] at hdiv ⊢
    generalize d * q = m at hdiv
    split <;> omega
  -- below it a whole unit is left
  · have hstep : d * (n / d) + d ≤ d * q := Nat.mul_succ d (n / d) ▸ Nat.mul_le_mul_left d hlt
    generalize d * (n / d) = m at hdiv hstep
    generalize d * q = m' at hstep
    split <;> omega

/-- The significand of a positive integer has 53 bits. -/
theorem exponentOf_nat {n : Nat} (hn : 0 < n) : exponentOf n 1 = (n.log2 : Int) - 52 := by
  have hlow := Nat.log2_self_le (Nat.ne_of_gt hn)
  have hone : Nat.log2 1 = 0 := by decide
  have hwide : ¬ (scaled n 1 ((n.log2 : Int) - Nat.log2 1 - 53)).1 /
      (scaled n 1 ((n.log2 : Int) - Nat.log2 1 - 53)).2 < Nat.pow 2 53 := by
    rw [hone, scaled, Nat.not_lt]
    by_cases h : 0 ≤ (n.log2 : Int) - ((0 : Nat) : Int) - 53
    · have hsplit : 2 ^ 53 * 2 ^ ((n.log2 : Int) - ((0 : Nat) : Int) - 53).toNat = 2 ^ n.log2 := by
        rw [← Nat.pow_add]
        congr 1
        omega
      rw [if_pos h]
      simp only [Nat.one_mul, Nat.pow_eq]
      rw [Nat.le_div_iff_mul_le (Nat.two_pow_pos _), hsplit]
      exact hlow
    · have hsplit : 2 ^ n.log2 * 2 ^ ((n.log2 : Int) - ((0 : Nat) : Int) - 53).natAbs = 2 ^ 53 := by
        rw [← Nat.pow_add]
        congr 1
        omega
      rw [if_neg h]
      simp only [Nat.div_one, Nat.pow_eq]
      rw [← hsplit]
      exact Nat.mul_le_mul_right _ hlow
  simp only [exponentOf, if_neg hwide]
  rw [hone, leastExponent]
  omega

/-- A quotient is rounded to an infinity when its exponent, raised where the significand is rounded
up to 54 bits, is beyond the greatest. -/
theorem ofRatio_eq_infinite_iff {negative : Bool} {n d : Nat} (hn : n ≠ 0) :
    (∃ sign, ofRatio negative n d = infinite sign) ↔ greatestExponent <
      if roundQuotient (scaled n d (exponentOf n d)).1 (scaled n d (exponentOf n d)).2 = Nat.pow 2 53
      then exponentOf n d + 1 else exponentOf n d := by
  rw [ofRatio, if_neg hn]
  generalize exponentOf n d = e
  by_cases hround : roundQuotient (scaled n d e).1 (scaled n d e).2 = Nat.pow 2 53
  · simp only [if_pos hround]
    by_cases hbeyond : greatestExponent < e + 1
    · rw [if_pos hbeyond]
      exact iff_of_true ⟨negative, rfl⟩ hbeyond
    · rw [if_neg hbeyond]
      exact iff_of_false (by simp) hbeyond
  · simp only [if_neg hround]
    by_cases hbeyond : greatestExponent < e
    · rw [if_pos hbeyond]
      exact iff_of_true ⟨negative, rfl⟩ hbeyond
    · rw [if_neg hbeyond]
      exact iff_of_false (by simp) hbeyond

/-- **An integer rounds to no finite number** exactly from half a unit above the largest one. -/
theorem ofInt_eq_infinite_iff {i : Int} :
    (∃ negative, ofInt i = infinite negative) ↔ leastOverflow ≤ i.natAbs := by
  have htop : 2 ^ 1024 = 2 ^ 53 * 2 ^ 971 := by rw [← Nat.pow_add]
  have hhalf : 2 ^ 971 = 2 ^ 1 * 2 ^ 970 := by rw [← Nat.pow_add]
  have hunit := Nat.two_pow_pos 970
  rw [ofInt, leastOverflow]
  generalize decide (i < 0) = negative
  generalize i.natAbs = n
  rcases Nat.eq_zero_or_pos n with rfl | hn
  · refine iff_of_false ?_ (by omega)
    rintro ⟨sign, h⟩
    exact absurd h (by simp [ofRatio, zero])
  rw [ofRatio_eq_infinite_iff (Nat.ne_of_gt hn), exponentOf_nat hn, greatestExponent]
  have hlow := Nat.log2_self_le (Nat.ne_of_gt hn)
  have hhigh := @Nat.lt_log2_self n
  rcases Nat.lt_trichotomy n.log2 1023 with hless | heq | hmore
  -- below the last binade
  · have hpow : 2 ^ (n.log2 + 1) ≤ 2 ^ 1023 := Nat.pow_le_pow_right (by decide) (Nat.succ_le_of_lt hless)
    have hbinade : 2 ^ 1024 = 2 ^ 1 * 2 ^ 1023 := by rw [← Nat.pow_add]
    refine iff_of_false ?_ (by omega)
    split <;> omega
  -- in the last binade the significand may be rounded up to the next one
  · have hscaled : scaled n 1 ((1023 : Nat) - 52) = (n, 2 ^ 971) := by
      rw [scaled, if_pos (by decide), Nat.one_mul]
      rfl
    have hodd : Nat.pow 2 53 = 2 ^ 53 - 1 + 1 := rfl
    have hround := @roundQuotient_eq_succ_iff n (2 ^ 971) (2 ^ 53 - 1) (by omega) (by decide)
      (by rw [heq] at hhigh; omega)
    rw [heq, hscaled, hodd]
    split
    · next hup =>
        have hmiddle := hround.1 hup
        exact iff_of_true (by decide) (by omega)
    · next hdown =>
        have hmiddle := mt hround.2 hdown
        exact iff_of_false (by decide) (by omega)
  -- beyond it
  · have hpow : 2 ^ 1024 ≤ 2 ^ n.log2 := Nat.pow_le_pow_right (by decide) hmore
    refine iff_of_true ?_ (by omega)
    split <;> omega

end Binary64

/-! ## Keys -/

namespace Key

theorem orUnreadable_ne_overflow (v : Option Value) : orUnreadable v ≠ .error .overflow := by
  cases v <;> simp [orUnreadable]

/-- The form is read as a number that does not fit exactly if it is an integer out of range under the
tag of floating-point numbers. -/
theorem read_eq_overflow_iff {form : Json} : read form = .error .overflow ↔
    ∃ i : Int, form = tagged "f" (.int i) ∧ Binary64.leastOverflow ≤ i.natAbs := by
  have hfloat : ∀ i : Int, read (tagged "f" (.int i)) = .error .overflow ↔
      Binary64.leastOverflow ≤ i.natAbs := by
    intro i
    show readFloat i = .error .overflow ↔ _
    rw [← Binary64.ofInt_eq_infinite_iff, readFloat]
    split
    · next sign hsign => exact iff_of_true rfl ⟨sign, hsign⟩
    · next hfinite => exact iff_of_false (by simp) fun ⟨sign, hsign⟩ => hfinite sign hsign
  constructor
  · intro h
    have hform : ∃ i : Int, form = tagged "f" (.int i) := by
      unfold read at h
      split at h
      · split at h
        case h_4 i => exact ⟨i, rfl⟩
        all_goals first
          | exact absurd h (orUnreadable_ne_overflow _)
          | exact absurd h (by simp)
      · exact absurd h (by simp)
    obtain ⟨i, rfl⟩ := hform
    exact ⟨i, rfl, (hfloat i).1 h⟩
  · rintro ⟨i, rfl, h⟩
    exact (hfloat i).2 h

end Key

namespace Sealer

/-- A key out of range is reached: behind keys that are accepted, an integer that rounds to no finite
number stands under the tag of floating-point numbers. -/
inductive Overflows (s : Sealer) : List SortKey → List Json → Prop
  | here {k : SortKey} {keys : List SortKey} {i : Int} {items : List Json}
      (h : Binary64.leastOverflow ≤ i.natAbs) :
      Overflows s (k :: keys) (Key.tagged "f" (.int i) :: items)
  | later {k : SortKey} {keys : List SortKey} {item : Json} {items : List Json} {v : Value}
      (h : s.readKey k.field item = .ok v) (more : Overflows s keys items) :
      Overflows s (k :: keys) (item :: items)

/-- The payload is of this version, for the entity and the order, and names a side and as many keys
as the order has. -/
structure Addresses (s : Sealer) (order : SortOrder) (fields : List (String × Json)) (side : Side)
    (items : List Json) : Prop where
  version : isVersion (Json.fieldNamed? "v" fields) = true
  entity : isText s.schema.entity (Json.fieldNamed? "e" fields) = true
  signature : isText order.signature (Json.fieldNamed? "s" fields) = true
  side : readSide (Json.fieldNamed? "d" fields) = .ok side
  keys : Json.fieldNamed? "k" fields = some (.list items)
  count : items.length = order.size

theorem readKey_eq_fault_iff {s : Sealer} {field : String} {item : Json} {e : Fault} :
    s.readKey field item = .error (.fault e) ↔ Key.read item = .error .overflow ∧ e = .overflow := by
  rw [readKey]
  cases hread : Key.read item with
  | error f =>
      cases f with
      | unreadable => exact iff_of_false (by simp [refuse]) (by simp)
      | overflow => simp [eq_comm]
  | ok v =>
      refine iff_of_false ?_ (by simp)
      simp only
      split
      · split <;> simp [refuse]
      · simp [refuse]

/-- An integer out of range is no key of any field. -/
theorem readKey_of_leastOverflow {i : Int} (h : Binary64.leastOverflow ≤ i.natAbs) (s : Sealer)
    (field : String) : s.readKey field (Key.tagged "f" (.int i)) = .error (.fault .overflow) :=
  readKey_eq_fault_iff.2 ⟨Key.read_eq_overflow_iff.2 ⟨i, rfl, h⟩, rfl⟩

/-- Keys are given up where one is reached that is out of range. -/
theorem readKeys_eq_fault_iff {s : Sealer} {e : Fault} {keys : List SortKey} :
    ∀ {items : List Json}, s.readKeys keys items = .error (.fault e) ↔
      s.Overflows keys items ∧ e = .overflow := by
  induction keys with
  | nil =>
      intro items
      refine iff_of_false (by simp [readKeys]) ?_
      rintro ⟨h, -⟩
      cases h
  | cons k keys ih =>
      intro items
      cases items with
      | nil =>
          refine iff_of_false (by simp [readKeys]) ?_
          rintro ⟨h, -⟩
          cases h
      | cons item items =>
          rw [readKeys]
          cases hkey : s.readKey k.field item with
          | error f =>
              have hfault : (Except.error f : Except CursorFault (List Value)) = .error (.fault e) ↔
                  s.readKey k.field item = .error (.fault e) := by
                rw [hkey, Except.error.injEq, Except.error.injEq]
              refine hfault.trans (readKey_eq_fault_iff.trans (and_congr_left fun _ => ?_))
              rw [Key.read_eq_overflow_iff]
              constructor
              · rintro ⟨i, rfl, hi⟩
                exact .here hi
              · intro h
                cases h with
                | here hi => exact ⟨_, rfl, hi⟩
                | later hv => exact absurd (hv.symm.trans hkey) (by simp)
          | ok v =>
              have hrest : ((.ok v : Except CursorFault Value) >>= fun v =>
                  s.readKeys keys items >>= fun vs => pure (v :: vs)) = .error (.fault e) ↔
                    s.readKeys keys items = .error (.fault e) := by
                cases s.readKeys keys items with
                | error f => rfl
                | ok vs => exact iff_of_false (by simp [bind, Except.bind, pure, Except.pure]) (by simp)
              refine hrest.trans (ih.trans (and_congr_left fun _ => ⟨.later hkey, fun h => ?_⟩))
              cases h with
              | here hi =>
                  exact absurd (hkey.symm.trans (readKey_of_leastOverflow hi s k.field)) (by simp)
              | later _ more => exact more

/-- What is made of a payload that is the sealer's own: its keys are read. -/
theorem Addresses.readContents_eq {s : Sealer} {order : SortOrder}
    {fields : List (String × Json)} {side : Side} {items : List Json}
    (h : s.Addresses order fields side items) : s.readContents order (.record fields) =
      (s.readKeys order.keys items).map fun values => ⟨values, side⟩ := by
  simp only [readContents, h.version, h.entity, h.signature, h.side, h.keys, h.count, Bool.not_true,
    Bool.false_eq_true, if_false, if_true]
  cases s.readKeys order.keys items <;> rfl

theorem readSide_cases (v : Option Json) :
    (∃ f, readSide v = refuse f) ∨ ∃ side, readSide v = .ok side := by
  unfold readSide
  split
  · split
    · next side _ => exact .inr ⟨side, rfl⟩
    · exact .inl ⟨_, rfl⟩
  · exact .inl ⟨_, rfl⟩

/-- Contents are refused unless they are the sealer's own. -/
theorem readContents_cases (s : Sealer) (order : SortOrder) (body : Json) :
    (∃ f, s.readContents order body = refuse f) ∨
      ∃ fields side items, body = .record fields ∧ s.Addresses order fields side items := by
  cases body with
  | record fields =>
      simp only [readContents]
      split
      · exact .inl ⟨_, rfl⟩
      split
      · exact .inl ⟨_, rfl⟩
      split
      · exact .inl ⟨_, rfl⟩
      next hversion hentity hsignature =>
        rcases readSide_cases (Json.fieldNamed? "d" fields) with ⟨f, hside⟩ | ⟨side, hside⟩
        · exact .inl ⟨f, by rw [hside]; rfl⟩
        simp only [hside, bind, Except.bind]
        split
        · next items hkeys =>
            by_cases hcount : items.length = order.size
            · exact .inr ⟨fields, side, items, rfl, by simpa using hversion, by simpa using hentity,
                by simpa using hsignature, hside, hkeys, hcount⟩
            · exact .inl ⟨_, if_neg hcount⟩
        · exact .inl ⟨_, rfl⟩
  | _ => exact .inl ⟨_, rfl⟩

/-- Contents are given up for a key that is out of range, and for nothing else. -/
theorem readContents_eq_fault_iff {s : Sealer} {order : SortOrder} {body : Json} {e : Fault} :
    s.readContents order body = .error (.fault e) ↔ (∃ fields side items, body = .record fields ∧
      s.Addresses order fields side items ∧ s.Overflows order.keys items) ∧ e = .overflow := by
  have haddressed : ∀ {fields side items}, s.Addresses order fields side items →
      (s.readContents order (.record fields) = .error (.fault e) ↔
        s.Overflows order.keys items ∧ e = .overflow) := by
    intro fields side items h
    rw [h.readContents_eq, ← readKeys_eq_fault_iff]
    cases s.readKeys order.keys items <;> simp [Except.map]
  constructor
  · intro h
    rcases s.readContents_cases order body with ⟨f, hf⟩ | ⟨fields, side, items, rfl, hown⟩
    · exact absurd (hf.symm.trans h) (by simp [refuse])
    · obtain ⟨hkeys, he⟩ := (haddressed hown).1 h
      exact ⟨⟨fields, side, items, rfl, hown, hkeys⟩, he⟩
  · rintro ⟨⟨fields, side, items, rfl, hown, hkeys⟩, he⟩
    exact (haddressed hown).2 ⟨hkeys, he⟩

end Sealer

/-! ## Tokens -/

/-- Only letters of the safe alphabet write octets. -/
theorem Base64Url.isSome_index?_of_decode {cs : List Char} {octets : List UInt8}
    (h : decode cs = some octets) : ∀ c ∈ cs, (index? c).isSome = true := by
  obtain ⟨ns, hns, -⟩ := Option.bind_eq_some_iff.1 h
  clear h
  induction cs generalizing ns with
  | nil => exact fun c hc => absurd hc List.not_mem_nil
  | cons c cs ih =>
      rw [List.mapM_cons] at hns
      obtain ⟨n, hn, hns⟩ := Option.bind_eq_some_iff.1 hns
      obtain ⟨rest, hrest, -⟩ := Option.bind_eq_some_iff.1 hns
      rw [List.forall_mem_cons]
      exact ⟨by rw [hn]; rfl, ih rest hrest⟩

namespace Sealer

/-- The token carries octets under the signature of the sealer. -/
def Carries (s : Sealer) (t : String) (octets : List UInt8) : Prop :=
  ∃ payload, t.toList = payload ++ '.' :: s.sign payload ∧ Base64Url.decode payload = some octets

/-- The token carries text that is nested too deeply to be read. -/
def Nested (s : Sealer) (t : String) : Prop :=
  ∃ octets, s.Carries t octets ∧ Json.readOctets s.depth octets = .error .tooDeep

/-- The token carries a payload of the sealer's own with a key out of range. -/
def OutOfRange (s : Sealer) (order : SortOrder) (t : String) : Prop :=
  ∃ octets fields side items, s.Carries t octets ∧ Json.readOctets s.depth octets = .ok (.record fields) ∧
    s.Addresses order fields side items ∧ s.Overflows order.keys items

/-- A token that carries octets other than none is opened up to them. -/
theorem Carries.openText_eq {s : Sealer} {t : String} {octets : List UInt8} (h : s.Carries t octets)
    (hne : octets ≠ []) (order : SortOrder) (hfits : s.exceeds t = .ok false) :
    s.openText order t = match Json.readOctets s.depth octets with
      | .ok body => s.readContents order body
      | .error .malformed => refuse .malformedPayload
      | .error .tooDeep => .error (.fault .tooDeep) := by
  obtain ⟨payload, ht, hdecode⟩ := h
  have hpayload : payload ≠ [] := by
    rintro rfl
    exact hne (Option.some.inj hdecode).symm
  rw [openText_signed ht hpayload (Base64Url.isSome_index?_of_decode hdecode) order hfits,
    if_neg Bool.false_ne_true, readPayload, hdecode]
  simp only
  cases Json.readOctets s.depth octets with
  | ok body => rfl
  | error f => cases f <;> rfl

/-- A text falls apart into the two parts of a token, or it is refused. -/
theorem splitToken_cases (cs : List Char) : splitToken cs = refuse .malformed ∨
    ∃ payload signature, splitToken cs = .ok (payload, signature) ∧
      cs = payload ++ '.' :: signature := by
  unfold splitToken
  cases hcut : cutChars '.' cs with
  | none => exact .inl rfl
  | some parts =>
      simp only
      split
      · exact .inr ⟨_, _, rfl, eq_append_of_cutChars hcut⟩
      · exact .inl rfl

/-- A token that is not refused fits and carries octets of structured text. -/
theorem openText_cases {s : Sealer} {t : String} {long : Bool} (hlong : s.exceeds t = .ok long)
    (order : SortOrder) : (∃ f, s.openText order t = refuse f) ∨
      long = false ∧ ∃ octets, octets ≠ [] ∧ s.Carries t octets := by
  rw [openText, hlong]
  split
  · exact .inl ⟨_, rfl⟩
  cases long with
  | true => exact .inl ⟨_, rfl⟩
  | false =>
      simp only [bind, Except.bind, Bool.false_eq_true, if_false]
      rcases splitToken_cases t.toList with hsplit | ⟨payload, signature, hsplit, ht⟩
      · exact .inl ⟨_, by rw [hsplit]; rfl⟩
      rw [hsplit]
      by_cases hsign : signature = s.sign payload
      · rw [hsign] at ht
        simp only [if_pos hsign, readPayload]
        cases hdecode : Base64Url.decode payload with
        | none => exact .inl ⟨_, rfl⟩
        | some octets =>
            by_cases hne : octets = []
            -- nothing is no structured text
            · subst hne
              exact .inl ⟨_, rfl⟩
            · exact .inr ⟨trivial, octets, hne, payload, ht, hdecode⟩
      · exact .inl ⟨_, if_neg hsign⟩

/-- **A cursor that fits is given up** exactly where its payload is nested too deeply or has a key
out of range. -/
theorem openText_eq_fault_iff {s : Sealer} {order : SortOrder} {t : String} {long : Bool}
    (hlong : s.exceeds t = .ok long) {e : Fault} : s.openText order t = .error (.fault e) ↔
      long = false ∧ (s.Nested t ∧ e = .tooDeep ∨ s.OutOfRange order t ∧ e = .overflow) := by
  have hread : ∀ {octets f}, Json.readOctets s.depth octets = f → f ≠ .error .malformed → octets ≠ [] := by
    rintro octets f h hf rfl
    exact hf h.symm
  constructor
  · intro h
    rcases openText_cases hlong order with ⟨f, hf⟩ | ⟨rfl, octets, hne, hcarries⟩
    · exact absurd (hf.symm.trans h) (by simp [refuse])
    rw [hcarries.openText_eq hne order hlong] at h
    refine ⟨rfl, ?_⟩
    split at h
    · next body hbody =>
        obtain ⟨⟨fields, side, items, rfl, hown, hover⟩, he⟩ := readContents_eq_fault_iff.1 h
        exact .inr ⟨⟨octets, fields, side, items, hcarries, hbody, hown, hover⟩, he⟩
    · exact absurd h (by simp [refuse])
    · next hdeep =>
        injection h with h
        injection h with h
        exact .inl ⟨⟨octets, hcarries, hdeep⟩, h.symm⟩
  · rintro ⟨rfl, ⟨⟨octets, hcarries, hdeep⟩, rfl⟩ |
      ⟨⟨octets, fields, side, items, hcarries, hbody, hown, hover⟩, rfl⟩⟩
    · rw [hcarries.openText_eq (hread hdeep (by simp)) order hlong, hdeep]
    · rw [hcarries.openText_eq (hread hbody (by simp)) order hlong, hbody]
      exact readContents_eq_fault_iff.2 ⟨⟨fields, side, items, rfl, hown, hover⟩, rfl⟩

/-- A fault that is no report comes out as it is. -/
theorem result_resume_eq_error_iff {s : Sealer} {order : SortOrder} {t : String} {e : Fault}
    (he : ∀ r, e ≠ .reported r) :
    (s.resume order (.text t)).result = .error e ↔ s.openText order t = .error (.fault e) := by
  rw [result_resume]
  cases s.openText order t with
  | ok p => exact iff_of_false (by simp) (by simp)
  | error f =>
      cases f with
      | flaw f => exact iff_of_false (fun h => he _ (Except.error.inj h).symm) (by simp)
      | fault e' => simp

/-- **Opening fails in one way but for two.** A cursor that is not resumed is rejected with a report
of its flaw, unless it fits, carries the right signature and is nested too deeply to be read or has a
floating-point key that is written as an integer out of range. -/
theorem resume_reports_iff {s : Sealer} {limit : Int} (hlimit : s.maxLength = .int limit)
    (order : SortOrder) (t : String) :
    ((s.resume order (.text t)).result = .error .tooDeep ↔ t.length ≤ limit ∧ s.Nested t) ∧
    ((s.resume order (.text t)).result = .error .overflow ↔
      t.length ≤ limit ∧ s.OutOfRange order t) ∧
    ((∃ p, (s.resume order (.text t)).result = .ok p) ∨
      (∃ f : CursorFlaw, (s.resume order (.text t)).result = reject (.cursor f.reason)) ↔
        ¬ (t.length ≤ limit ∧ (s.Nested t ∨ s.OutOfRange order t))) := by
  have hfits : decide (limit < t.length) = false ↔ t.length ≤ limit := by
    rw [decide_eq_false_iff_not, Int.not_lt]
  have hfault : ∀ {e : Fault}, s.openText order t = .error (.fault e) ↔
      t.length ≤ limit ∧ (s.Nested t ∧ e = .tooDeep ∨ s.OutOfRange order t ∧ e = .overflow) := by
    intro e
    rw [openText_eq_fault_iff (exceeds_eq hlimit t), hfits]
  -- what is opened or refused is neither
  have hclear : (∀ e, s.openText order t ≠ .error (.fault e)) →
      ¬ (t.length ≤ limit ∧ (s.Nested t ∨ s.OutOfRange order t)) := by
    rintro hnone ⟨hlong, hnested | hrange⟩
    · exact hnone _ (hfault.2 ⟨hlong, .inl ⟨hnested, rfl⟩⟩)
    · exact hnone _ (hfault.2 ⟨hlong, .inr ⟨hrange, rfl⟩⟩)
  refine ⟨?_, ?_, ?_⟩
  · rw [result_resume_eq_error_iff (by simp), hfault]
    simp
  · rw [result_resume_eq_error_iff (by simp), hfault]
    simp
  · rw [result_resume]
    cases hopen : s.openText order t with
    | ok p => exact iff_of_true (.inl ⟨p, rfl⟩) (hclear (by simp [hopen]))
    | error f =>
        cases f with
        | flaw f => exact iff_of_true (.inr ⟨f, rfl⟩) (hclear (by simp [hopen]))
        | fault e =>
            obtain ⟨hlong, h⟩ := hfault.1 hopen
            refine iff_of_false ?_ (not_not_intro ⟨hlong, h.imp And.left And.left⟩)
            rintro (⟨p, hp⟩ | ⟨f, hf⟩)
            · exact absurd hp (by simp)
            · obtain rfl := Except.error.inj hf
              simp at h

end Sealer

/-! ## Forged cursors -/

/-- More brackets than there is room for are nested too deeply. -/
theorem Json.readValue_brackets {limit n : Nat} (rest : List Char) : ∀ {depth fuel : Nat},
    limit ≤ depth + n → 2 * n + 1 ≤ fuel →
    readValue limit depth fuel (List.replicate (n + 1) '[' ++ rest) = .error .tooDeep := by
  induction n with
  | zero =>
      intro depth fuel hdepth hfuel
      obtain ⟨fuel, rfl⟩ : ∃ m, fuel = m + 1 := ⟨fuel - 1, by omega⟩
      exact if_pos hdepth
  | succ n ih =>
      intro depth fuel hdepth hfuel
      obtain ⟨fuel, rfl⟩ : ∃ m, fuel = m + 2 := ⟨fuel - 2, by omega⟩
      have hitems : readItems limit (depth + 1) (fuel + 1) (List.replicate (n + 1) '[' ++ rest) =
          .error .tooDeep := by
        have hdepth' : limit ≤ depth + 1 + n := by omega
        rw [readItems, ih hdepth' (by omega)]
        rfl
      have hskip : skip (List.replicate (n + 1) '[' ++ rest) = List.replicate (n + 1) '[' ++ rest :=
        ((opens_cons (by decide) (List.replicate n '[')).append rest).skip
      rw [List.replicate_succ, List.cons_append, readValue, hskip]
      split
      · rfl
      split
      -- the next bracket opens another list
      · next heq => exact absurd (List.cons.inj heq).1 (by decide)
      · rw [hitems]
        rfl

namespace Forged

/-- Items numbered by a field that may be sorted. -/
def schema : Schema where
  entity := "items"
  fields := [("id", ⟨.number, [], true, false, [], false⟩)]
  tieBreaker := "id"
  defaultSort := []

/-- A sealer of items that opens cursors of up to the usual length. -/
def sealer : Sealer where
  key := encode "0123456789abcdef"
  schema := schema
  maxLength := .int Sealer.lengthLimit

/-- The items in the order of their numbers. -/
def order : SortOrder :=
  ⟨[⟨"id", .ascending⟩], List.cons_ne_nil _ _⟩

/-- The token that carries octets under the signature of the sealer. -/
def tokenOf (octets : List UInt8) : String :=
  String.ofList (Base64Url.encode octets ++ '.' :: sealer.sign (Base64Url.encode octets))

/-- As many brackets as are too deep, and no more. -/
def brackets : List Char :=
  List.replicate (Json.depthLimit + 1) '['

/-- The least power of two that is out of range, as a key. -/
def key : Json :=
  Key.tagged "f" (.int (2 ^ 1024 : Nat))

/-- A payload with a key out of range. -/
def body : Json :=
  sealer.contents order .after [key]

theorem carries_tokenOf (octets : List UInt8) : sealer.Carries (tokenOf octets) octets :=
  ⟨_, String.toList_ofList, Base64Url.decode_encode octets⟩

/-- A token is as long as its octets make it. -/
theorem length_tokenOf (octets : List UInt8) :
    (tokenOf octets).length = (4 * octets.length + 2) / 3 + 44 := by
  rw [tokenOf, String.length_ofList, List.length_append, List.length_cons, Sealer.sign,
    Base64Url.length_encode, Base64Url.length_encode, Hmac.length_digest]

theorem isPlain_brackets : ∀ c ∈ brackets, IsPlain c := by
  intro c hc
  rw [List.eq_of_mem_replicate hc]
  exact ⟨by decide, by decide⟩

theorem nested_tokenOf : sealer.Nested (tokenOf (brackets.flatMap encodeChar)) := by
  refine ⟨_, carries_tokenOf _, ?_⟩
  have hopens : Json.Opens brackets := Json.opens_cons (by decide) _
  have hread : Json.readValue Json.depthLimit 0 (2 * brackets.length + 2) brackets = .error .tooDeep := by
    have hdepth : Json.depthLimit ≤ 0 + Json.depthLimit := by omega
    have hbrackets := Json.readValue_brackets [] hdepth
      (show 2 * Json.depthLimit + 1 ≤ 2 * brackets.length + 2 by
        rw [brackets, List.length_replicate]
        omega)
    rwa [List.append_nil] at hbrackets
  rw [Json.readOctets, decode_flatMap_encodeChar _ isPlain_brackets]
  simp only [Json.readChars, hopens.skip, sealer, hread]
  rfl

theorem width_key : Decimal.width (2 ^ 1024) ≤ 1025 := by
  apply length_digits_le
  have hle : 2 ^ 1024 ≤ 10 ^ 1024 := Nat.pow_le_pow_left (by decide) _
  have hlt : 10 ^ 1024 < 10 ^ (1024 + 1) := Nat.pow_lt_pow_right (by decide) (Nat.lt_succ_self _)
  exact lt_of_le_of_lt hle hlt

theorem readableItems_key : Json.ReadableItems 1 [key] := by
  have hkey : Json.Readable 1 key := by
    refine Key.readable_tagged ?_
    rw [Json.Readable, Int.natAbs_natCast]
    exact Nat.le_trans width_key (by decide)
  rw [Json.ReadableItems, Json.ReadableItems]
  exact ⟨hkey, trivial⟩

theorem outOfRange_body : sealer.OutOfRange order (sealer.token body) := by
  have hread := Json.readOctets_write (sealer.readable_contents order .after readableItems_key)
    sealer.deep
  have hown : sealer.Addresses order [("v", .int Sealer.version), ("e", .text schema.entity),
      ("s", .text order.signature), ("d", .text Side.after.name), ("k", .list [key])] .after [key] :=
    ⟨rfl, by decide, by decide, rfl, rfl, rfl⟩
  refine ⟨_, _, .after, [key], carries_tokenOf _, hread, hown, .here ?_⟩
  rw [Int.natAbs_natCast]
  exact Nat.sub_le _ _

theorem length_itemsChars_tagged (n : Nat) :
    (Json.itemsChars [Key.tagged "f" (.int n)]).length = Decimal.width n + 6 := by
  have htag : (Json.quotedChars "f").length = 3 := by decide
  have hnumber : (integerChars n).length = Decimal.width n := by
    rw [integerChars, if_neg (by omega), Int.natAbs_natCast, Decimal.width]
  simp only [Json.itemsChars_singleton, Key.tagged, Json.chars_list, Json.itemsChars_cons_cons,
    Json.chars_text, Json.chars_int, List.length_cons, List.length_append, List.length_nil, htag,
    hnumber]
  omega

theorem fits_body : ((sealer.token body).length : Int) ≤ Sealer.lengthLimit := by
  have hkey : (Json.itemsChars [key]).length ≤ 1031 := by
    rw [key, length_itemsChars_tagged]
    exact Nat.add_le_add_right width_key 6
  have hentity : (Json.quotedChars sealer.schema.entity).length = 7 := by decide
  have hsignature : (Json.quotedChars order.signature).length = 8 := by decide
  have hside : (Json.quotedChars Side.after.name).length = 7 := by decide
  rw [Sealer.length_token, body, Sealer.length_chars_contents, hentity, hsignature, hside,
    Sealer.lengthLimit]
  omega

theorem fits_brackets :
    ((tokenOf (brackets.flatMap encodeChar)).length : Int) ≤ Sealer.lengthLimit := by
  rw [length_tokenOf, length_flatMap_encodeChar isPlain_brackets, brackets, List.length_replicate]
  decide

end Forged

namespace Sealer

/-- A payload of brackets under the right signature is given up; it is neither resumed nor
reported. -/
theorem resume_reports_forged :
    Forged.sealer.maxLength = .int lengthLimit ∧
    (Forged.sealer.resume Forged.order
      (.text (Forged.tokenOf (Forged.brackets.flatMap encodeChar)))).result = .error .tooDeep :=
  ⟨rfl, (resume_reports_iff rfl Forged.order _).1.2 ⟨Forged.fits_brackets, Forged.nested_tokenOf⟩⟩

/-- A cursor under the right signature that is neither resumed nor reported: its key is an integer out
of range. -/
theorem resume_reports_fails :
    (Forged.sealer.resume Forged.order (.text (Forged.sealer.token Forged.body))).result =
      .error .overflow ∧
    ¬ ((∃ p, (Forged.sealer.resume Forged.order
        (.text (Forged.sealer.token Forged.body))).result = .ok p) ∨
      ∃ f : CursorFlaw, (Forged.sealer.resume Forged.order
        (.text (Forged.sealer.token Forged.body))).result = reject (.cursor f.reason)) := by
  have hfits : Forged.sealer.exceeds (Forged.sealer.token Forged.body) = .ok false := by
    rw [exceeds_eq rfl, decide_eq_false (Int.not_lt.2 Forged.fits_body)]
  have hfault := (openText_eq_fault_iff hfits).2 ⟨rfl, .inr ⟨Forged.outOfRange_body, rfl⟩⟩
  have hresult := (result_resume_eq_error_iff (by simp)).2 hfault
  refine ⟨hresult, ?_⟩
  rw [hresult]
  simp [reject]

end Sealer

end Listing
