import Mathlib.Data.List.Basic
import Listing.Base64Url
import Listing.Text.Encoding

/-!
# Octets and texts that are read back

Octets written in the safe alphabet are read back as they were (`Base64Url.decode_encode`), and a
text of plain characters is read back from its octets although the reader has to find out how they
were written (`Text.decode_flatMap_encodeChar`). Both are steps of the way of a cursor through its
token.
-/

set_option autoImplicit false

namespace Listing

namespace Base64Url

theorem index?_letter : ∀ n < 64, index? (letter n) = some n := by decide

/-- The numbers of the characters that write octets join to the octets. -/
theorem mapM_index?_encode (octets : List UInt8) :
    ∃ ns, (encode octets).mapM index? = some ns ∧ join ns = some octets := by
  fun_induction encode octets with
  | case1 => exact ⟨[], rfl, rfl⟩
  | case2 a n =>
      -- one octet is left over: the second character carries four empty bits
      have ha := a.toNat_lt
      refine ⟨[n / 64, n % 64], ?_, ?_⟩
      · simp [List.mapM_cons, index?_letter (n / 64) (by omega), index?_letter (n % 64) (by omega)]
      · have hn : (n / 64 * 64 + n % 64) / 16 = a.toNat := by omega
        simp [join, hn]
  | case3 a b n =>
      -- two octets are left over: the third character carries two empty bits
      have ha := a.toNat_lt
      have hb := b.toNat_lt
      refine ⟨[n / 4096, n / 64 % 64, n % 64], ?_, ?_⟩
      · simp [List.mapM_cons, index?_letter (n / 4096) (by omega),
          index?_letter (n / 64 % 64) (by omega), index?_letter (n % 64) (by omega)]
      · have hfirst : ((n / 4096 * 64 + n / 64 % 64) * 64 + n % 64) / 1024 = a.toNat := by omega
        have hsecond : ((n / 4096 * 64 + n / 64 % 64) * 64 + n % 64) / 4 % 256 = b.toNat := by
          omega
        simp [join, hfirst, hsecond]
  | case4 a b c rest n ih =>
      -- three octets fill four characters, and the rest is read after them
      have ha := a.toNat_lt
      have hb := b.toNat_lt
      have hc := c.toNat_lt
      obtain ⟨ns, hns, hjoin⟩ := ih
      refine ⟨n / 262144 :: n / 4096 % 64 :: n / 64 % 64 :: n % 64 :: ns, ?_, ?_⟩
      · simp [List.mapM_cons, index?_letter (n / 262144) (by omega),
          index?_letter (n / 4096 % 64) (by omega), index?_letter (n / 64 % 64) (by omega),
          index?_letter (n % 64) (by omega), hns]
      · have hn : ((n / 262144 * 64 + n / 4096 % 64) * 64 + n / 64 % 64) * 64 + n % 64 = n := by
          omega
        have hfirst : n / 65536 = a.toNat := by omega
        have hsecond : n / 256 % 256 = b.toNat := by omega
        have hthird : n % 256 = c.toNat := by omega
        simp [join, hn, hfirst, hsecond, hthird, hjoin]

/-- **Octets are read back.** -/
theorem decode_encode (octets : List UInt8) : decode (encode octets) = some octets := by
  obtain ⟨ns, hns, hjoin⟩ := mapM_index?_encode octets
  rw [decode, hns]
  exact hjoin

/-- Every written character is in the alphabet. -/
theorem isSome_index?_of_mem_encode (octets : List UInt8) :
    ∀ c ∈ encode octets, (index? c).isSome = true := by
  have letters : ∀ n < 64, (index? (letter n)).isSome = true := by
    intro n hn
    rw [index?_letter n hn]
    rfl
  fun_induction encode octets with
  | case1 => simp
  | case2 a n =>
      have ha := a.toNat_lt
      simp [letters (n / 64) (by omega), letters (n % 64) (by omega)]
  | case3 a b n =>
      have ha := a.toNat_lt
      have hb := b.toNat_lt
      simp [letters (n / 4096) (by omega), letters (n / 64 % 64) (by omega),
        letters (n % 64) (by omega)]
  | case4 a b c rest n ih =>
      have ha := a.toNat_lt
      have hb := b.toNat_lt
      have hc := c.toNat_lt
      simpa [letters (n / 262144) (by omega), letters (n / 4096 % 64) (by omega),
        letters (n / 64 % 64) (by omega), letters (n % 64) (by omega)] using ih

theorem encode_ne_nil {octets : List UInt8} (h : octets ≠ []) : encode octets ≠ [] := by
  intro hnil
  have hback := decode_encode octets
  rw [hnil] at hback
  exact h (Option.some.inj hback).symm

/-- Three octets take four characters, and what is left over takes one more than it has octets. -/
theorem length_encode (octets : List UInt8) :
    (encode octets).length = (4 * octets.length + 2) / 3 := by
  fun_induction encode octets with
  | case1 => rfl
  | case2 a n => simp
  | case3 a b n => simp
  | case4 a b c rest n ih =>
      simp only [List.length_cons, ih]
      omega

end Base64Url

namespace Text

/-- The character is written by one octet that is not zero. -/
def IsPlain (c : Char) : Prop :=
  0 < c.toNat ∧ c.toNat < 128

instance (c : Char) : Decidable (IsPlain c) :=
  inferInstanceAs (Decidable (_ ∧ _))

theorem encodeChar_of_isPlain {c : Char} (h : IsPlain c) : encodeChar c = [c.toNat.toUInt8] := by
  simp [encodeChar, h.2]

theorem toNat_toUInt8_of_isPlain {c : Char} (h : IsPlain c) : c.toNat.toUInt8.toNat = c.toNat := by
  have hlt : c.toNat < 256 := by
    have := h.2
    omega
  simp [Nat.toUInt8, UInt8.toNat_ofNat', Nat.mod_eq_of_lt hlt]

theorem length_flatMap_encodeChar {cs : List Char} (h : ∀ c ∈ cs, IsPlain c) :
    (cs.flatMap encodeChar).length = cs.length := by
  induction cs with
  | nil => rfl
  | cons c cs ih =>
      rw [List.flatMap_cons, encodeChar_of_isPlain (h c (by simp)), List.singleton_append,
        List.length_cons, List.length_cons, ih fun d hd => h d (by simp [hd])]

theorem decodeUtf8_flatMap_encodeChar (cs : List Char) (h : ∀ c ∈ cs, IsPlain c) :
    decodeUtf8 (cs.flatMap encodeChar) = some cs := by
  induction cs with
  | nil => rfl
  | cons c cs ih =>
      have hc : IsPlain c := h c (by simp)
      rw [List.flatMap_cons, encodeChar_of_isPlain hc, List.singleton_append, decodeUtf8.eq_def]
      simp only [toNat_toUInt8_of_isPlain hc]
      rw [if_pos hc.2, ih (fun d hd => h d (by simp [hd]))]
      simp

/-- The octets of plain characters are plain numbers. -/
theorem isPlain_octet {cs : List Char} (h : ∀ c ∈ cs, IsPlain c) {o : UInt8}
    (ho : o ∈ cs.flatMap encodeChar) : 0 < o.toNat ∧ o.toNat < 128 := by
  obtain ⟨c, hc, hoc⟩ := List.mem_flatMap.1 ho
  rw [encodeChar_of_isPlain (h c hc), List.mem_singleton] at hoc
  rw [hoc, toNat_toUInt8_of_isPlain (h c hc)]
  exact h c hc

theorem isPrefixOf_eq_false {mark octets : List UInt8} {m : UInt8} (hm : m ∈ mark)
    (h : m ∉ octets) : mark.isPrefixOf octets = false := by
  rw [Bool.eq_false_iff]
  intro hmark
  rw [List.isPrefixOf_iff_prefix] at hmark
  exact h (hmark.subset hm)

/-- Octets without zeros and without high ones carry no mark and are read as UTF-8. -/
theorem decode_eq_decodeUtf8 (octets : List UInt8)
    (h : ∀ o ∈ octets, 0 < o.toNat ∧ o.toNat < 128) : decode octets = decodeUtf8 octets := by
  -- every mark holds an octet that no plain character has
  have hhigh : ∀ m : UInt8, 128 ≤ m.toNat → m ∉ octets := by
    intro m hm ho
    have := h m ho
    omega
  have hzero : ∀ o ∈ octets, o ≠ 0 := by
    intro o ho h0
    have hpos := (h o ho).1
    rw [h0] at hpos
    exact absurd hpos (by decide)
  unfold decode
  rw [isPrefixOf_eq_false (m := 0xFE) (by decide) (hhigh _ (by decide)),
    isPrefixOf_eq_false (m := 0xFE) (by decide) (hhigh _ (by decide)),
    isPrefixOf_eq_false (m := 0xFE) (by decide) (hhigh _ (by decide)),
    isPrefixOf_eq_false (m := 0xFE) (by decide) (hhigh _ (by decide)),
    isPrefixOf_eq_false (m := 0xEF) (by decide) (hhigh _ (by decide))]
  simp only [Bool.false_eq_true, if_false]
  -- without a mark the width is told by the zeros among the first octets
  split
  · rw [if_neg (hzero _ (by simp)), if_neg (hzero _ (by simp))]
  · rw [if_neg (hzero _ (by simp)), if_neg (hzero _ (by simp))]
  · rfl

/-- **A text of plain characters is read back from its octets.** -/
theorem decode_flatMap_encodeChar (cs : List Char) (h : ∀ c ∈ cs, IsPlain c) :
    decode (cs.flatMap encodeChar) = some cs := by
  rw [decode_eq_decodeUtf8 _ (fun _ ho => isPlain_octet h ho), decodeUtf8_flatMap_encodeChar cs h]

end Text

end Listing
