import Mathlib.Data.List.Basic
import Mathlib.Data.List.Perm.Basic
import Listing.Proofs.TracedResult
import Listing.Store.Sorting

/-!
# Sorting is stable

On keys that a set of values makes comparable (`Orderable`), both sorts succeed, permute their
items, and leave two items in the order of their keys, or, where neither key is less, in the order in
which they came (`Orderable.sortAscending_spec`, `Orderable.sortDescending_spec`). The order in which
they came is any relation that the items satisfy pairwise, so that sorting by one key after another
composes.
-/

set_option autoImplicit false

namespace Listing.Sorting

variable {α : Type}

/-! ## Nothing is lost -/

section

variable {x last : Keyed α} {items sorted rest run tail taken out : List (Keyed α)}

theorem insert_perm (h : insert x sorted = .ok out) : out.Perm (x :: sorted) := by
  rw [insert] at h
  obtain ⟨n, -, h⟩ := Result.bind_eq_ok.1 h
  obtain rfl := Except.ok.inj h
  have hperm : (sorted.take n ++ x :: sorted.drop n).Perm
      (x :: (sorted.take n ++ sorted.drop n)) := List.perm_middle
  rwa [List.take_append_drop] at hperm

theorem insertAll_perm : ∀ {rest sorted : List (Keyed α)}, insertAll sorted rest = .ok out →
    out.Perm (sorted ++ rest) := by
  intro rest
  induction rest with
  | nil =>
      intro sorted h
      obtain rfl := Except.ok.inj h
      rw [List.append_nil]
  | cons x rest ih =>
      intro sorted h
      rw [insertAll] at h
      obtain ⟨mid, hmid, h⟩ := Result.bind_eq_ok.1 h
      calc out.Perm (mid ++ rest) := ih h
        List.Perm _ (x :: sorted ++ rest) := (insert_perm hmid).append_right rest
        List.Perm _ (sorted ++ x :: rest) := List.perm_middle.symm

theorem risingRun_append : ∀ {rest run : List (Keyed α)} {last : Keyed α},
    risingRun last rest = .ok (run, tail) → run ++ tail = rest := by
  intro rest
  induction rest with
  | nil =>
      intro run last h
      obtain ⟨rfl, rfl⟩ := Prod.mk.inj (Except.ok.inj h)
      rfl
  | cons x rest ih =>
      intro run last h
      rw [risingRun] at h
      obtain ⟨isLess, -, h⟩ := Result.bind_eq_ok.1 h
      cases isLess with
      | true =>
          obtain ⟨rfl, rfl⟩ := Prod.mk.inj (Except.ok.inj h)
          rfl
      | false =>
          obtain ⟨⟨run', tail'⟩, hrun, h⟩ := Result.bind_eq_ok.1 h
          obtain ⟨rfl, rfl⟩ := Prod.mk.inj (Except.ok.inj h)
          rw [List.cons_append, ih hrun]

theorem fallingRun_perm : ∀ {rest taken : List (Keyed α)} {last : Keyed α},
    fallingRun last taken rest = .ok (run, tail) → (run ++ tail).Perm (taken ++ rest) := by
  intro rest
  induction rest with
  | nil =>
      intro taken last h
      obtain ⟨rfl, rfl⟩ := Prod.mk.inj (Except.ok.inj h)
      exact .refl _
  | cons x rest ih =>
      intro taken last h
      rw [fallingRun] at h
      obtain ⟨isLess, -, h⟩ := Result.bind_eq_ok.1 h
      cases isLess with
      -- the item joins the run in front, where it is moved from behind it
      | true => exact (ih h).trans List.perm_middle.symm
      | false =>
          obtain ⟨rfl, rfl⟩ := Prod.mk.inj (Except.ok.inj h)
          exact .refl _

theorem firstRun_perm (h : firstRun items = .ok (run, tail)) : (run ++ tail).Perm items := by
  match items, h with
  | [], h =>
      obtain ⟨rfl, rfl⟩ := Prod.mk.inj (Except.ok.inj h)
      exact .refl _
  | [x], h =>
      obtain ⟨rfl, rfl⟩ := Prod.mk.inj (Except.ok.inj h)
      exact .refl _
  | x :: y :: rest, h =>
      rw [firstRun] at h
      obtain ⟨isLess, -, h⟩ := Result.bind_eq_ok.1 h
      cases isLess with
      -- a falling run holds both items the other way round already
      | true => exact (fallingRun_perm h).trans (.swap x y rest)
      | false =>
          obtain ⟨⟨run', tail'⟩, hrun, h⟩ := Result.bind_eq_ok.1 h
          obtain ⟨rfl, rfl⟩ := Prod.mk.inj (Except.ok.inj h)
          rw [List.cons_append, List.cons_append, risingRun_append hrun]

/-- Whatever the keys, sorting into rising order keeps the items. -/
theorem sortAscending_perm (h : sortAscending items = .ok out) : out.Perm items := by
  rw [sortAscending] at h
  obtain ⟨⟨run, tail⟩, hrun, h⟩ := Result.bind_eq_ok.1 h
  exact (insertAll_perm h).trans (firstRun_perm hrun)

/-- So does sorting into falling order. -/
theorem sortDescending_perm (h : sortDescending items = .ok out) : out.Perm items := by
  rw [sortDescending] at h
  obtain ⟨reversed, hreversed, h⟩ := Result.bind_eq_ok.1 h
  obtain rfl := Except.ok.inj h
  exact (List.reverse_perm reversed).trans
    ((sortAscending_perm hreversed).trans (List.reverse_perm items))

end

/-! ## Comparable keys -/

/-- The values of a set can be compared: each comparison is decided, never both ways, and what is
not greater than a value is not greater than one that follows it. -/
structure Orderable (S : Value → Prop) : Prop where
  decided : ∀ {v w}, S v → S w → ∃ b, v.compares .lt w = .ok b
  asymm : ∀ {v w}, S v → S w → v.compares .lt w = .ok true → w.compares .lt v ≠ .ok true
  trans : ∀ {u v w}, S u → S v → S w → v.compares .lt u ≠ .ok true →
    w.compares .lt v ≠ .ok true → w.compares .lt u ≠ .ok true

/-- The key of the first item is less. -/
def Less (a b : Keyed α) : Prop :=
  less a b = .ok true

/-- The first item rightly stands before the second: its key is less, or it came first and the key
of the second is not less. -/
def Settled (R : Keyed α → Keyed α → Prop) (a b : Keyed α) : Prop :=
  Less a b ∨ ¬Less b a ∧ R a b

section

variable {S : Value → Prop} (hS : Orderable S) {R : Keyed α → Keyed α → Prop}

include hS

theorem Orderable.less_cases {a b : Keyed α} (ha : S a.1) (hb : S b.1) :
    less a b = .ok true ∧ Less a b ∨ less a b = .ok false ∧ ¬Less a b := by
  obtain ⟨v, hv⟩ := hS.decided ha hb
  cases v with
  | true => exact Or.inl ⟨hv, hv⟩
  | false =>
      refine Or.inr ⟨hv, ?_⟩
      intro h
      rw [Less, less, hv] at h
      exact absurd (Except.ok.inj h) Bool.false_ne_true

/-- An item settled before another is not greater. -/
theorem Orderable.not_less_of_settled {a b : Keyed α} (ha : S a.1) (hb : S b.1)
    (h : Settled R a b) : ¬Less b a := by
  rcases h with h | h
  · exact hS.asymm ha hb h
  · exact h.1

end

/-! ## Insertion -/

/-- The place is right for an item: nothing before it is greater, everything from it on is. -/
structure IsPlaceOf (x : Keyed α) (sorted : List (Keyed α)) (n : Nat) : Prop where
  bounded : n ≤ sorted.length
  before : ∀ y ∈ sorted.take n, ¬Less x y
  behind : ∀ y ∈ sorted.drop n, Less x y

section

variable {S : Value → Prop} (hS : Orderable S)

include hS

theorem Orderable.before_middle {x y : Keyed α} {sorted : List (Keyed α)} {n : Nat}
    (hx : S x.1) (hsorted : ∀ z ∈ sorted, S z.1)
    (hpair : sorted.Pairwise fun a b => ¬Less b a) (hy : sorted[n]? = some y)
    (hless : ¬Less x y) : ∀ z ∈ sorted.take (n + 1), ¬Less x z := by
  intro z hz
  obtain ⟨i, hi, rfl⟩ := List.mem_iff_getElem.1 hz
  rw [List.getElem_take]
  rw [List.length_take] at hi
  obtain ⟨hn, rfl⟩ := List.getElem?_eq_some_iff.1 hy
  rcases Nat.lt_or_eq_of_le (show i ≤ n by omega) with hin | rfl
  -- before the middle: at most the middle, which is not greater than `x`
  · have hzy := List.pairwise_iff_getElem.1 hpair i n (by omega) hn hin
    exact hS.trans (hsorted _ (List.getElem_mem _)) (hsorted _ (List.getElem_mem _)) hx hzy hless
  · exact hless

theorem Orderable.behind_middle {x y : Keyed α} {sorted : List (Keyed α)} {n : Nat}
    (hx : S x.1) (hsorted : ∀ z ∈ sorted, S z.1)
    (hpair : sorted.Pairwise fun a b => ¬Less b a) (hy : sorted[n]? = some y)
    (hless : Less x y) : ∀ z ∈ sorted.drop n, Less x z := by
  intro z hz
  obtain ⟨i, hi, rfl⟩ := List.mem_iff_getElem.1 hz
  rw [List.getElem_drop]
  rw [List.length_drop] at hi
  obtain ⟨hn, rfl⟩ := List.getElem?_eq_some_iff.1 hy
  rcases Nat.eq_zero_or_pos i with rfl | hpos
  · exact hless
  -- behind the middle: at least the middle, which is greater than `x`
  · have hyz := List.pairwise_iff_getElem.1 hpair n (n + i) hn (by omega) (by omega)
    have hz : S (sorted.get ⟨n + i, by omega⟩).1 := hsorted _ (List.getElem_mem _)
    rcases hS.less_cases hx hz with ⟨-, h⟩ | ⟨-, h⟩
    · exact h
    · exact absurd hless (hS.trans (hsorted _ (List.getElem_mem _)) hz hx hyz h)

/-- Halving keeps the range around the right place. -/
theorem Orderable.insertionPoint_spec {x : Keyed α} {sorted : List (Keyed α)} (hx : S x.1)
    (hsorted : ∀ z ∈ sorted, S z.1) (hpair : sorted.Pairwise fun a b => ¬Less b a)
    (low high : Nat) (hlow : low ≤ high) (hhigh : high ≤ sorted.length)
    (hbefore : ∀ y ∈ sorted.take low, ¬Less x y) (hbehind : ∀ y ∈ sorted.drop high, Less x y) :
    ∃ n, insertionPoint x sorted low high = .ok n ∧ IsPlaceOf x sorted n := by
  induction low, high using insertionPoint.induct x sorted with
  | case1 low high hlt middle hnone =>
      -- the middle lies inside the list
      exact absurd (List.getElem?_eq_none_iff.1 hnone) (by omega)
  | case2 low high hlt middle y hy e herror =>
      -- comparable keys raise nothing
      have hmem : y ∈ sorted := List.mem_of_getElem? hy
      rcases hS.less_cases hx (hsorted y hmem) with ⟨h, -⟩ | ⟨h, -⟩
      · exact absurd (h.symm.trans herror) (by simp)
      · exact absurd (h.symm.trans herror) (by simp)
  | case3 low high hlt middle y hy hless ih =>
      -- `x` is less: the range ends at the middle
      obtain ⟨n, hn, hplace⟩ := ih (by omega) (by omega) hbefore
        (hS.behind_middle hx hsorted hpair hy hless)
      refine ⟨n, ?_, hplace⟩
      rw [insertionPoint, dif_pos hlt]
      simp only [middle] at hy hn
      simp only [hy, hless, hn]
  | case4 low high hlt middle y hy hless ih =>
      -- `x` is not less: the range starts behind the middle
      have hnot : ¬Less x y := by
        intro h
        exact absurd (hless.symm.trans h) (by simp)
      obtain ⟨n, hn, hplace⟩ := ih (by omega) (by omega)
        (hS.before_middle hx hsorted hpair hy hnot) hbehind
      refine ⟨n, ?_, hplace⟩
      rw [insertionPoint, dif_pos hlt]
      simp only [middle] at hy hn
      simp only [hy, hless, hn]
  | case5 low high hlt =>
      -- the range is empty
      refine ⟨low, ?_, by omega, hbefore, ?_⟩
      · rw [insertionPoint, dif_neg hlt]
      · rw [show low = high by omega]
        exact hbehind

variable {R : Keyed α → Keyed α → Prop}

theorem Orderable.pairwise_not_less {sorted : List (Keyed α)} (hsorted : ∀ z ∈ sorted, S z.1)
    (hpair : sorted.Pairwise (Settled R)) : sorted.Pairwise fun a b => ¬Less b a := by
  apply hpair.imp_of_mem
  intro a b ha hb hab
  exact hS.not_less_of_settled (hsorted a ha) (hsorted b hb) hab

/-- An item that came after all others is inserted where it is settled. -/
theorem Orderable.insert_spec {x : Keyed α} {sorted : List (Keyed α)} (hx : S x.1)
    (hsorted : ∀ z ∈ sorted, S z.1) (hpair : sorted.Pairwise (Settled R))
    (hlast : ∀ z ∈ sorted, R z x) :
    ∃ out, insert x sorted = .ok out ∧ out.Perm (x :: sorted) ∧ out.Pairwise (Settled R) := by
  obtain ⟨n, hn, hplace⟩ := hS.insertionPoint_spec hx hsorted (hS.pairwise_not_less hsorted hpair)
    0 sorted.length (by omega) (by omega) (by simp) (by simp)
  have hout : insert x sorted = .ok (sorted.take n ++ x :: sorted.drop n) := by
    rw [insert, hn]
    rfl
  refine ⟨sorted.take n ++ x :: sorted.drop n, hout, insert_perm hout, ?_⟩
  have hsplit : (sorted.take n ++ sorted.drop n).Pairwise (Settled R) := by
    rw [List.take_append_drop]
    exact hpair
  obtain ⟨hleft, hright, hacross⟩ := List.pairwise_append.1 hsplit
  refine List.pairwise_append.2 ⟨hleft, List.pairwise_cons.2 ⟨?_, hright⟩, ?_⟩
  -- what stands behind is greater
  · intro z hz
    exact Or.inl (hplace.behind z hz)
  · intro a ha b hb
    rcases List.mem_cons.1 hb with rfl | hb
    -- what stands before is not greater, and it came first
    · exact Or.inr ⟨hplace.before a ha, hlast a (List.mem_of_mem_take ha)⟩
    · exact hacross a ha b hb

theorem Orderable.insertAll_spec (rest : List (Keyed α)) : ∀ {sorted : List (Keyed α)},
    (∀ z ∈ sorted, S z.1) → (∀ z ∈ rest, S z.1) → sorted.Pairwise (Settled R) →
    rest.Pairwise R → (∀ a ∈ sorted, ∀ b ∈ rest, R a b) →
    ∃ out, insertAll sorted rest = .ok out ∧ out.Perm (sorted ++ rest) ∧
      out.Pairwise (Settled R) := by
  induction rest with
  | nil =>
      intro sorted _ _ hpair _ _
      exact ⟨sorted, rfl, by rw [List.append_nil], hpair⟩
  | cons x rest ih =>
      intro sorted hsorted hrest hpair hR hacross
      obtain ⟨hx, hR⟩ := List.pairwise_cons.1 hR
      obtain ⟨mid, hmid, hperm, hmidpair⟩ := hS.insert_spec (hrest x (by simp)) hsorted hpair
        (fun z hz => hacross z hz x (by simp))
      have hmem : ∀ z ∈ mid, z = x ∨ z ∈ sorted := by
        intro z hz
        exact List.mem_cons.1 (hperm.mem_iff.1 hz)
      have hmidS : ∀ z ∈ mid, S z.1 := by
        intro z hz
        rcases hmem z hz with rfl | hz
        · exact hrest z (by simp)
        · exact hsorted z hz
      have hmidR : ∀ a ∈ mid, ∀ b ∈ rest, R a b := by
        intro a ha b hb
        rcases hmem a ha with rfl | ha
        · exact hx b hb
        · exact hacross a ha b (by simp [hb])
      -- the rest is inserted into a list that is settled again
      obtain ⟨out, hout, hperm', hpair'⟩ := ih hmidS (fun z hz => hrest z (by simp [hz])) hmidpair
        hR hmidR
      refine ⟨out, ?_, ?_, hpair'⟩
      · rw [insertAll, hmid]
        exact hout
      · calc out.Perm (mid ++ rest) := hperm'
          List.Perm _ (x :: sorted ++ rest) := hperm.append_right rest
          List.Perm _ (sorted ++ x :: rest) := List.perm_middle.symm

end

/-! ## Runs -/

section

variable {S : Value → Prop} (hS : Orderable S) {R : Keyed α → Keyed α → Prop}

include hS

/-- A rising run is a start of the list in which no item is less than the one before it. -/
theorem Orderable.risingRun_spec (rest : List (Keyed α)) : ∀ {last : Keyed α},
    S last.1 → (∀ z ∈ rest, S z.1) → ∃ run tail, risingRun last rest = .ok (run, tail) ∧
      run ++ tail = rest ∧ (last :: run).Pairwise fun a b => ¬Less b a := by
  induction rest with
  | nil =>
      intro last _ _
      exact ⟨[], [], rfl, rfl, List.pairwise_singleton _ _⟩
  | cons x rest ih =>
      intro last hlast hrest
      have hx : S x.1 := hrest x (by simp)
      rcases hS.less_cases hx hlast with ⟨h, -⟩ | ⟨h, hnot⟩
      -- `x` is less than the last item: the run ends before it
      · refine ⟨[], x :: rest, ?_, rfl, List.pairwise_singleton _ _⟩
        rw [risingRun, h]
        rfl
      · obtain ⟨run, tail, hrun, happ, hpair⟩ := ih hx (fun z hz => hrest z (by simp [hz]))
        refine ⟨x :: run, tail, ?_, by rw [List.cons_append, happ], ?_⟩
        · rw [risingRun, h]
          simp only [hrun]
          rfl
        -- what follows is at least `x`, and `x` at least the last item
        · refine List.pairwise_cons.2 ⟨?_, hpair⟩
          intro z hz
          rcases List.mem_cons.1 hz with rfl | hz
          · exact hnot
          · have hz' : z ∈ x :: rest := by
              rw [← happ]
              simp [hz]
            exact hS.trans hlast hx (hrest z hz') hnot ((List.pairwise_cons.1 hpair).1 z hz)

/-- Less is transitive on comparable keys. -/
theorem Orderable.less_trans {a b c : Keyed α} (ha : S a.1) (hb : S b.1) (hc : S c.1)
    (hab : Less a b) (hbc : Less b c) : Less a c := by
  rcases hS.less_cases ha hc with ⟨-, h⟩ | ⟨-, h⟩
  · exact h
  · -- otherwise `c` is at most `a`, and `b` at most `c`
    exact absurd hab (hS.trans hb hc ha (hS.asymm hb hc hbc) h)

/-- A falling run is a start of the list in which every item is less than the one before it, in
opposite order. -/
theorem Orderable.fallingRun_spec (rest : List (Keyed α)) : ∀ {last : Keyed α}
    {taken : List (Keyed α)}, S last.1 → (∀ z ∈ taken, S z.1) → (∀ z ∈ rest, S z.1) →
    (last :: taken).Pairwise Less → ∃ mid tail,
      fallingRun last (last :: taken) rest = .ok (mid.reverse ++ last :: taken, tail) ∧
      mid ++ tail = rest ∧ (mid.reverse ++ last :: taken).Pairwise Less := by
  induction rest with
  | nil =>
      intro last taken _ _ _ hpair
      exact ⟨[], [], rfl, rfl, hpair⟩
  | cons x rest ih =>
      intro last taken hlast htaken hrest hpair
      have hx : S x.1 := hrest x (by simp)
      rcases hS.less_cases hx hlast with ⟨h, hless⟩ | ⟨h, -⟩
      -- `x` is less than all that were taken, for it is less than the last of them
      · have hpair' : (x :: last :: taken).Pairwise Less := by
          refine List.pairwise_cons.2 ⟨?_, hpair⟩
          intro z hz
          rcases List.mem_cons.1 hz with rfl | hz
          · exact hless
          · exact hS.less_trans hx hlast (htaken z hz) hless ((List.pairwise_cons.1 hpair).1 z hz)
        obtain ⟨mid, tail, hrun, happ, hout⟩ := ih hx
          (by
            intro z hz
            rcases List.mem_cons.1 hz with rfl | hz
            · exact hlast
            · exact htaken z hz)
          (fun z hz => hrest z (by simp [hz])) hpair'
        refine ⟨x :: mid, tail, ?_, by rw [List.cons_append, happ], ?_⟩
        · rw [fallingRun, h]
          change fallingRun x (x :: last :: taken) rest = _
          rw [hrun, List.reverse_cons, List.append_assoc]
          rfl
        · simpa using hout
      -- `x` is not less: the run ends before it
      · refine ⟨[], x :: rest, ?_, rfl, hpair⟩
        rw [fallingRun, h]
        rfl

/-- The first run is settled, and everything in it came before the rest. -/
theorem Orderable.firstRun_spec {items : List (Keyed α)} (hitems : ∀ z ∈ items, S z.1)
    (hR : items.Pairwise R) : ∃ run tail, firstRun items = .ok (run, tail) ∧
      (run ++ tail).Perm items ∧ run.Pairwise (Settled R) ∧ tail.Pairwise R ∧
      ∀ a ∈ run, ∀ b ∈ tail, R a b := by
  match items, hitems, hR with
  | [], _, _ => exact ⟨[], [], rfl, .refl _, .nil, .nil, by simp⟩
  | [x], _, _ => exact ⟨[x], [], rfl, .refl _, List.pairwise_singleton _ _, .nil, by simp⟩
  | x :: y :: rest, hitems, hR =>
      have hx : S x.1 := hitems x (by simp)
      have hy : S y.1 := hitems y (by simp)
      have hrest : ∀ z ∈ rest, S z.1 := fun z hz => hitems z (by simp [hz])
      rcases hS.less_cases hy hx with ⟨h, hless⟩ | ⟨h, hnot⟩
      -- a falling run is reversed: its items are less, whatever their order was
      · have hpair : [y, x].Pairwise Less := by
          rw [List.pairwise_pair]
          exact hless
        obtain ⟨mid, tail, hrun, happ, hout⟩ := hS.fallingRun_spec rest hy
          (by simpa using hx) hrest hpair
        have hsplit : ((x :: y :: mid) ++ tail).Pairwise R := by
          rw [List.cons_append, List.cons_append, happ]
          exact hR
        obtain ⟨-, htail, hacross⟩ := List.pairwise_append.1 hsplit
        have hreverse : (mid.reverse ++ [y, x]).Perm (x :: y :: mid) := by
          have := List.reverse_perm (x :: y :: mid)
          simpa using this
        refine ⟨mid.reverse ++ [y, x], tail, ?_, ?_, ?_, htail, ?_⟩
        · rw [firstRun, h]
          exact hrun
        · have := hreverse.append_right tail
          rwa [List.cons_append, List.cons_append, happ] at this
        · exact hout.imp Or.inl
        · intro a ha b hb
          exact hacross a (hreverse.mem_iff.1 ha) b hb
      -- a rising run stays as it is: equal keys are in the order in which they came
      · obtain ⟨run, tail, hrun, happ, hpair⟩ := hS.risingRun_spec rest hy hrest
        have hrunmem : ∀ z ∈ run, S z.1 := by
          intro z hz
          apply hrest z
          rw [← happ]
          simp [hz]
        have hsplit : ((x :: y :: run) ++ tail).Pairwise R := by
          rw [List.cons_append, List.cons_append, happ]
          exact hR
        obtain ⟨hrunR, htail, hacross⟩ := List.pairwise_append.1 hsplit
        have hrising : (x :: y :: run).Pairwise fun a b => ¬Less b a := by
          refine List.pairwise_cons.2 ⟨?_, hpair⟩
          intro z hz
          rcases List.mem_cons.1 hz with rfl | hz
          · exact hnot
          · exact hS.trans hx hy (hrunmem z hz) hnot ((List.pairwise_cons.1 hpair).1 z hz)
        refine ⟨x :: y :: run, tail, ?_, ?_, ?_, htail, hacross⟩
        · rw [firstRun, h]
          simp only [hrun]
          rfl
        · rw [List.cons_append, List.cons_append, happ]
        · exact hrising.imp₂ (fun _ _ h hR => Or.inr ⟨h, hR⟩) hrunR

/-! ## Both sorts -/

/-- **Sorting into rising order is stable.** -/
theorem Orderable.sortAscending_spec {items : List (Keyed α)} (hitems : ∀ z ∈ items, S z.1)
    (hR : items.Pairwise R) :
    ∃ out, sortAscending items = .ok out ∧ out.Perm items ∧ out.Pairwise (Settled R) := by
  obtain ⟨run, tail, hrun, hperm, hpair, htail, hacross⟩ := hS.firstRun_spec hitems hR
  have hmem : ∀ z ∈ run ++ tail, S z.1 := fun z hz => hitems z (hperm.mem_iff.1 hz)
  obtain ⟨out, hout, hperm', hpair'⟩ := hS.insertAll_spec tail
    (fun z hz => hmem z (List.mem_append_left _ hz))
    (fun z hz => hmem z (List.mem_append_right _ hz)) hpair htail hacross
  refine ⟨out, ?_, hperm'.trans hperm, hpair'⟩
  rw [sortAscending, hrun]
  exact hout

/-- **Sorting into falling order is stable.** -/
theorem Orderable.sortDescending_spec {items : List (Keyed α)} (hitems : ∀ z ∈ items, S z.1)
    (hR : items.Pairwise R) :
    ∃ out, sortDescending items = .ok out ∧ out.Perm items ∧
      out.Pairwise fun a b => Less b a ∨ ¬Less a b ∧ R a b := by
  -- reversed twice, so equal keys keep the order in which they came
  have hreverse : ∀ z ∈ items.reverse, S z.1 := fun z hz => hitems z (List.mem_reverse.1 hz)
  obtain ⟨out, hout, hperm, hpair⟩ := hS.sortAscending_spec (R := fun a b => R b a) hreverse
    (List.pairwise_reverse.2 hR)
  refine ⟨out.reverse, ?_, ?_, List.pairwise_reverse.2 hpair⟩
  · rw [sortDescending, hout]
    rfl
  · exact (List.reverse_perm out).trans (hperm.trans (List.reverse_perm items))

end

/-! ## Ties -/

/-- Of two items that are picked neither is less. -/
def PicksTies (pick : Keyed α → Bool) (items : List (Keyed α)) : Prop :=
  ∀ a ∈ items, ∀ b ∈ items, pick a = true → pick b = true → ¬Less a b

theorem PicksTies.of_subset {pick : Keyed α → Bool} {items items' : List (Keyed α)}
    (h : PicksTies pick items) (hsub : items' ⊆ items) : PicksTies pick items' :=
  fun a ha b hb => h a (hsub ha) b (hsub hb)

/-- Where at most one item is picked, the order of the items does not matter. -/
theorem filter_reverse_of_pairwise {β : Type} {pick : β → Bool} {items : List β}
    (h : items.Pairwise fun a b => ¬(pick a = true ∧ pick b = true)) :
    items.reverse.filter pick = items.filter pick := by
  rw [List.filter_reverse]
  have hpicked := h.filter pick
  match hfilter : items.filter pick with
  | [] => rfl
  | [a] => rfl
  | a :: b :: rest =>
      rw [hfilter] at hpicked
      have ha : a ∈ items.filter pick := hfilter ▸ List.mem_cons_self
      have hb : b ∈ items.filter pick := hfilter ▸ List.mem_cons_of_mem a List.mem_cons_self
      have hab := (List.pairwise_cons.1 hpicked).1 b List.mem_cons_self
      exact absurd ⟨(List.mem_filter.1 ha).2, (List.mem_filter.1 hb).2⟩ hab

/-- From a list that falls strictly at most one item is picked. -/
theorem PicksTies.filter_reverse {pick : Keyed α → Bool} {items : List (Keyed α)}
    (h : PicksTies pick items) (hless : items.Pairwise Less) :
    items.reverse.filter pick = items.filter pick := by
  refine filter_reverse_of_pairwise (hless.imp_of_mem fun {a b} ha hb hab => ?_)
  rintro ⟨hpa, hpb⟩
  exact h a ha b hb hpa hpb hab

section

variable {S : Value → Prop} (hS : Orderable S) {R : Keyed α → Keyed α → Prop}
  {pick : Keyed α → Bool} {items out : List (Keyed α)}

include hS

/-- An item is inserted behind all items that it ties with. -/
theorem Orderable.filter_insert {x : Keyed α} {sorted : List (Keyed α)} (hx : S x.1)
    (hsorted : ∀ z ∈ sorted, S z.1) (hpair : sorted.Pairwise (Settled R))
    (hpick : PicksTies pick (sorted ++ [x])) (h : insert x sorted = .ok out) :
    out.filter pick = (sorted ++ [x]).filter pick := by
  obtain ⟨n, hn, hplace⟩ := hS.insertionPoint_spec hx hsorted (hS.pairwise_not_less hsorted hpair)
    0 sorted.length (by omega) (by omega) (by simp) (by simp)
  rw [insert, hn] at h
  obtain rfl := Except.ok.inj h
  have hsplit : sorted.filter pick = (sorted.take n).filter pick ++ (sorted.drop n).filter pick := by
    rw [← List.filter_append, List.take_append_drop]
  rw [List.filter_append, List.filter_append, hsplit]
  cases hpicked : pick x with
  | false => simp [hpicked]
  | true =>
      -- everything behind the place is greater, so none of it is picked
      have hbehind : (sorted.drop n).filter pick = [] := by
        refine List.filter_eq_nil_iff.2 fun z hz hzpick => ?_
        have hmem : z ∈ sorted ++ [x] := List.mem_append_left _ (List.mem_of_mem_drop hz)
        exact hpick x (by simp) z hmem hpicked hzpick (hplace.behind z hz)
      simp [hpicked, hbehind]

theorem Orderable.filter_insertAll (rest : List (Keyed α)) : ∀ {sorted : List (Keyed α)},
    (∀ z ∈ sorted, S z.1) → (∀ z ∈ rest, S z.1) → sorted.Pairwise (Settled fun _ _ => True) →
    PicksTies pick (sorted ++ rest) → insertAll sorted rest = .ok out →
    out.filter pick = (sorted ++ rest).filter pick := by
  induction rest with
  | nil =>
      intro sorted _ _ _ _ h
      obtain rfl := Except.ok.inj h
      rw [List.append_nil]
  | cons x rest ih =>
      intro sorted hsorted hrest hpair hpick h
      have hx : S x.1 := hrest x List.mem_cons_self
      have happend : sorted ++ x :: rest = (sorted ++ [x]) ++ rest := List.append_cons _ _ _
      rw [happend] at hpick ⊢
      rw [insertAll] at h
      obtain ⟨mid, hmid, hperm, hmidpair⟩ := hS.insert_spec hx hsorted hpair fun _ _ => trivial
      rw [hmid, Result.ok_bind] at h
      have hmem : mid ⊆ sorted ++ [x] :=
        (hperm.trans (List.perm_append_singleton x sorted).symm).subset
      have hmidS : ∀ z ∈ mid, S z.1 := by
        intro z hz
        rcases List.mem_append.1 (hmem hz) with hz | hz
        · exact hsorted z hz
        · rwa [List.mem_singleton.1 hz]
      have hfirst := hS.filter_insert hx hsorted hpair
        (hpick.of_subset (List.subset_append_left _ rest)) hmid
      -- the rest is inserted into a list from which the same items are picked
      have hothers := ih hmidS (fun z hz => hrest z (List.mem_cons_of_mem x hz)) hmidpair
        (hpick.of_subset (List.append_subset.2
          ⟨List.Subset.trans hmem (List.subset_append_left _ rest),
            List.subset_append_right _ rest⟩)) h
      rw [hothers, List.filter_append, hfirst, ← List.filter_append]

theorem Orderable.filter_firstRun {run tail : List (Keyed α)} (hitems : ∀ z ∈ items, S z.1)
    (hpick : PicksTies pick items) (h : firstRun items = .ok (run, tail)) :
    (run ++ tail).filter pick = items.filter pick := by
  match items, hitems, hpick, h with
  | [], _, _, h =>
      obtain ⟨rfl, rfl⟩ := Prod.mk.inj (Except.ok.inj h)
      rfl
  | [x], _, _, h =>
      obtain ⟨rfl, rfl⟩ := Prod.mk.inj (Except.ok.inj h)
      rfl
  | x :: y :: rest, hitems, hpick, h =>
      have hx : S x.1 := hitems x (by simp)
      have hy : S y.1 := hitems y (by simp)
      have hrest : ∀ z ∈ rest, S z.1 := fun z hz => hitems z (by simp [hz])
      rw [firstRun] at h
      rcases hS.less_cases hy hx with ⟨hless, hyx⟩ | ⟨hless, -⟩
      · rw [hless] at h
        obtain ⟨mid, tail', hrun, happ, hfalling⟩ := hS.fallingRun_spec rest hy
          (by simpa using hx) hrest (List.pairwise_pair.2 hyx)
        obtain ⟨rfl, rfl⟩ := Prod.mk.inj (Except.ok.inj (hrun.symm.trans h))
        -- the run is the start of the items turned round
        have hreverse : (mid.reverse ++ [y, x]).reverse = x :: y :: mid := by simp
        have hsub : mid.reverse ++ [y, x] ⊆ x :: y :: rest := by
          rw [← List.reverse_subset, hreverse, ← happ]
          exact List.cons_subset_cons x (List.cons_subset_cons y (List.subset_append_left mid _))
        have hturned := (hpick.of_subset hsub).filter_reverse hfalling
        rw [hreverse] at hturned
        rw [List.filter_append, ← hturned, ← List.filter_append, ← happ]
        rfl
      · rw [hless, Result.ok_bind, if_neg Bool.false_ne_true] at h
        obtain ⟨⟨run', tail'⟩, hrun, h⟩ := Result.bind_eq_ok.1 h
        obtain ⟨rfl, rfl⟩ := Prod.mk.inj (Except.ok.inj h)
        rw [List.cons_append, List.cons_append, risingRun_append hrun]

/-- **Sorting into rising order leaves ties in place.** -/
theorem Orderable.filter_sortAscending (hitems : ∀ z ∈ items, S z.1)
    (hpick : PicksTies pick items) (h : sortAscending items = .ok out) :
    out.filter pick = items.filter pick := by
  obtain ⟨run, tail, hrun, hperm, hpair, -, -⟩ := hS.firstRun_spec (R := fun _ _ => True) hitems
    (List.pairwise_of_forall fun _ _ => trivial)
  rw [sortAscending, hrun] at h
  have hmem : ∀ z ∈ run ++ tail, S z.1 := fun z hz => hitems z (hperm.mem_iff.1 hz)
  have hall := hS.filter_insertAll tail (fun z hz => hmem z (List.mem_append_left _ hz))
    (fun z hz => hmem z (List.mem_append_right _ hz)) hpair (hpick.of_subset hperm.subset) h
  rw [hall, hS.filter_firstRun hitems hpick hrun]

/-- **Sorting into falling order leaves ties in place.** -/
theorem Orderable.filter_sortDescending (hitems : ∀ z ∈ items, S z.1)
    (hpick : PicksTies pick items) (h : sortDescending items = .ok out) :
    out.filter pick = items.filter pick := by
  rw [sortDescending] at h
  obtain ⟨rising, hrising, h⟩ := Result.bind_eq_ok.1 h
  obtain rfl := Except.ok.inj h
  have hsub : items.reverse ⊆ items := (List.reverse_perm items).subset
  have hfilter := hS.filter_sortAscending (fun z hz => hitems z (hsub hz)) (hpick.of_subset hsub)
    hrising
  rw [List.filter_reverse, hfilter, List.filter_reverse, List.reverse_reverse]

end

end Listing.Sorting
