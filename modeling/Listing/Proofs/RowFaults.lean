import Listing.Page.Pager
import Listing.Proofs.WritableTexts
import Listing.Store.Memory

/-!
# Faults of rows

What a row makes of a predicate, a sort or a cursor may be a fault, but never a report: reports are
about requests. So rows that are compared, selected, sorted and sealed fail plainly, whatever they
hold.
-/

set_option autoImplicit false

namespace Listing

/-! ## Comparisons -/

namespace Value

theorem failsPlainly_illTyped {α : Type} : FailsPlainly (.error .illTyped : Result α) :=
  failsOnly_error trivial

/-- Two scalars may have no equality, where a number signals that it is none. -/
theorem failsPlainly_equalScalars (a b : Value) : FailsPlainly (equalScalars a b) := by
  unfold equalScalars
  split
  · split
    · exact failsOnly_error trivial
    · exact failsOnly_ok _
  · split <;> exact failsOnly_ok _

mutual

theorem failsPlainly_equal : ∀ v w : Value, FailsPlainly (v.equal w)
  | list vs, w => by
      cases w with
      | list ws =>
          rw [equal]
          split
          · exact failsPlainly_equalAll vs ws
          · exact failsOnly_ok _
      | _ =>
          simp only [equal]
          exact failsOnly_ok _
  | tuple vs, w => by
      cases w with
      | tuple ws =>
          rw [equal]
          exact failsPlainly_equalAll vs ws
      | _ =>
          simp only [equal]
          exact failsOnly_ok _
  | map es, w => by
      cases w with
      | map fs =>
          rw [equal]
          split
          · exact failsPlainly_equalEntries es fs
          · exact failsOnly_ok _
      | _ =>
          simp only [equal]
          exact failsOnly_ok _
  | object as, w => by
      cases w with
      | object bs =>
          rw [equal]
          split
          · exact failsPlainly_equalAttributes as bs
          · exact failsOnly_ok _
      | _ =>
          simp only [equal]
          exact failsOnly_ok _
  | null, w | bool _, w | int _, w | float _, w | decimal _, w | text _, w | instant _, w
  | day _, w | uuid _, w | member _, w => by
      simp only [equal]
      exact failsPlainly_equalScalars _ w

theorem failsPlainly_equalAll : ∀ vs ws : List Value, FailsPlainly (equalAll vs ws)
  | [], ws => by
      rw [equalAll]
      exact failsOnly_ok _
  | v :: vs, [] => by
      rw [equalAll]
      exact failsOnly_ok _
  | v :: vs, w :: ws => by
      rw [equalAll]
      exact (failsPlainly_equal v w).bind_ite (failsPlainly_equalAll vs ws) (failsOnly_ok _)

theorem failsPlainly_equalEntries : ∀ es fs : List (Value × Value),
    FailsPlainly (equalEntries es fs)
  | [], fs => by
      rw [equalEntries]
      exact failsOnly_ok _
  | (k, v) :: rest, fs => by
      rw [equalEntries]
      split
      · exact failsOnly_ok _
      · apply (failsPlainly_equal v _).bind_ite
        · exact failsPlainly_equalEntries rest fs
        · exact failsOnly_ok _

theorem failsPlainly_equalAttributes : ∀ as bs : List (String × Value),
    FailsPlainly (equalAttributes as bs)
  | [], bs => by
      rw [equalAttributes]
      exact failsOnly_ok _
  | (name, v) :: rest, bs => by
      rw [equalAttributes]
      split
      · exact failsOnly_ok _
      · apply (failsPlainly_equal v _).bind_ite
        · exact failsPlainly_equalAttributes rest bs
        · exact failsOnly_ok _

end

theorem failsPlainly_isAmong (v : Value) : ∀ ws : List Value, FailsPlainly (v.isAmong ws)
  | [] => failsOnly_ok _
  | w :: ws => (failsPlainly_equal v w).bind_ite (failsOnly_ok _) (failsPlainly_isAmong v ws)

theorem failsPlainly_compareScalars (op : Comparison) (a b : Value) :
    FailsPlainly (compareScalars op a b) := by
  unfold compareScalars
  split
  · split
    · exact failsOnly_error trivial
    · split <;> exact failsOnly_ok _
  · split
    · exact failsOnly_ok _
    · split
      · exact failsOnly_ok _
      · exact failsPlainly_illTyped
    · exact failsOnly_ok _
    · exact failsOnly_ok _
    · exact failsPlainly_illTyped

mutual

theorem failsPlainly_compares (op : Comparison) : ∀ v w : Value, FailsPlainly (v.compares op w)
  | list vs, w => by
      cases w with
      | list ws =>
          rw [compares]
          exact failsPlainly_comparesAll op vs ws
      | _ =>
          simp only [compares]
          exact failsPlainly_illTyped
  | tuple vs, w => by
      cases w with
      | tuple ws =>
          rw [compares]
          exact failsPlainly_comparesAll op vs ws
      | _ =>
          simp only [compares]
          exact failsPlainly_illTyped
  | map _, w | object _, w | null, w | bool _, w | int _, w | float _, w | decimal _, w | text _, w
  | instant _, w | day _, w | uuid _, w | member _, w => by
      simp only [compares]
      exact failsPlainly_compareScalars op _ w

theorem failsPlainly_comparesAll (op : Comparison) : ∀ vs ws : List Value,
    FailsPlainly (comparesAll op vs ws)
  | [], ws => by
      rw [comparesAll]
      exact failsOnly_ok _
  | v :: vs, [] => by
      rw [comparesAll]
      exact failsOnly_ok _
  | v :: vs, w :: ws => by
      rw [comparesAll]
      apply (failsPlainly_equal v w).bind_ite
      · exact failsPlainly_comparesAll op vs ws
      · exact failsPlainly_compares op v w

end

end Value

/-! ## Predicates -/

namespace Predicate

theorem failsPlainly_describes (v p : Value) (anyCase : Bool) :
    FailsPlainly (describes v p anyCase) := by
  unfold describes
  split
  · exact failsOnly_ok _
  · split
    · exact (Value.failsPlainly_displayed _).bind_pure _
    · exact Value.failsPlainly_illTyped

theorem failsPlainly_knownNot {v : Value} {x : Result Bool} (h : FailsPlainly x) :
    FailsPlainly (knownNot v x) := by
  unfold knownNot
  split
  · exact failsOnly_ok _
  · exact h.map _

mutual

/-- A predicate that is asked of a row fails plainly: a thing that is no predicate is not reported
either. -/
theorem failsPlainly_holds : ∀ (p : Predicate) (row : Value), FailsPlainly (p.holds row)
  | always, row => failsOnly_ok _
  | equal f v, row => by
      rw [holds]
      exact Value.failsPlainly_equal _ v
  | differ f v, row => by
      rw [holds]
      exact failsPlainly_knownNot (Value.failsPlainly_equal _ v)
  | order f op v, row => by
      rw [holds, comparesKnown]
      split
      · exact failsOnly_ok _
      · exact Value.failsPlainly_compares op _ v
  | like f p anyCase, row => by
      rw [holds]
      exact failsPlainly_describes _ p anyCase
  | unlike f p, row => by
      rw [holds]
      exact failsPlainly_knownNot (failsPlainly_describes _ p false)
  | among f vs, row => by
      rw [holds]
      exact Value.failsPlainly_isAmong _ vs
  | outside f vs, row => by
      rw [holds]
      exact failsPlainly_knownNot (Value.failsPlainly_isAmong _ vs)
  | all parts, row => by
      rw [holds]
      exact failsPlainly_holdsAll parts row
  | any parts, row => by
      rw [holds]
      exact failsPlainly_holdsAny parts row
  | foreign v, row => by
      rw [holds]
      exact failsOnly_error trivial

theorem failsPlainly_holdsAll : ∀ (parts : List Predicate) (row : Value),
    FailsPlainly (holdsAll parts row)
  | [], row => failsOnly_ok _
  | p :: rest, row => by
      rw [holdsAll]
      exact (failsPlainly_holds p row).bind_ite (failsPlainly_holdsAll rest row) (failsOnly_ok _)

theorem failsPlainly_holdsAny : ∀ (parts : List Predicate) (row : Value),
    FailsPlainly (holdsAny parts row)
  | [], row => failsOnly_ok _
  | p :: rest, row => by
      rw [holdsAny]
      exact (failsPlainly_holds p row).bind_ite (failsOnly_ok _) (failsPlainly_holdsAny rest row)

end

theorem failsPlainly_select {condition : Value → Result Bool}
    (h : ∀ row, FailsPlainly (condition row)) :
    ∀ rows : List Value, FailsPlainly (select condition rows)
  | [] => failsOnly_ok _
  | row :: rest => by
      rw [select]
      exact (h row).bind_both (failsPlainly_select h rest) _

end Predicate

/-! ## Sorts -/

namespace Sorting

variable {α : Type}

theorem failsPlainly_less (a b : Keyed α) : FailsPlainly (less a b) :=
  Value.failsPlainly_compares .lt a.1 b.1

theorem failsPlainly_risingRun : ∀ (last : Keyed α) (items : List (Keyed α)),
    FailsPlainly (risingRun last items)
  | _, [] => failsOnly_ok _
  | last, x :: rest => by
      rw [risingRun]
      apply (failsPlainly_less x last).bind_ite
      · exact failsOnly_ok _
      · exact (failsPlainly_risingRun x rest).bind_pure _

theorem failsPlainly_fallingRun : ∀ (last : Keyed α) (taken items : List (Keyed α)),
    FailsPlainly (fallingRun last taken items)
  | _, _, [] => failsOnly_ok _
  | last, taken, x :: rest => by
      rw [fallingRun]
      apply (failsPlainly_less x last).bind_ite
      · exact failsPlainly_fallingRun x (x :: taken) rest
      · exact failsOnly_ok _

theorem failsPlainly_firstRun : ∀ items : List (Keyed α), FailsPlainly (firstRun items)
  | [] => failsOnly_ok _
  | [_] => failsOnly_ok _
  | x :: y :: rest => by
      rw [firstRun]
      apply (failsPlainly_less y x).bind_ite
      · exact failsPlainly_fallingRun y [y, x] rest
      · exact (failsPlainly_risingRun y rest).bind_pure _

theorem failsPlainly_insertionPoint (x : Keyed α) (sorted : List (Keyed α)) (low high : Nat) :
    FailsPlainly (insertionPoint x sorted low high) := by
  fun_induction insertionPoint x sorted low high with
  | case1 => exact failsOnly_ok _
  | case2 low high h middle y hy e he =>
      exact failsOnly_error (failsPlainly_less x y e he)
  | case3 low high h middle y hy he ih => exact ih
  | case4 low high h middle y hy he ih => exact ih
  | case5 => exact failsOnly_ok _

theorem failsPlainly_insertAll : ∀ sorted items : List (Keyed α),
    FailsPlainly (insertAll sorted items)
  | _, [] => failsOnly_ok _
  | sorted, x :: rest => by
      rw [insertAll, insert]
      apply ((failsPlainly_insertionPoint x sorted 0 sorted.length).bind_pure _).bind
      intro longer _
      exact failsPlainly_insertAll longer rest

theorem failsPlainly_sortAscending (items : List (Keyed α)) :
    FailsPlainly (sortAscending items) :=
  (failsPlainly_firstRun items).bind fun _ _ => failsPlainly_insertAll _ _

theorem failsPlainly_sortDescending (items : List (Keyed α)) :
    FailsPlainly (sortDescending items) :=
  (failsPlainly_sortAscending items.reverse).bind_pure _

end Sorting

/-! ## Windows -/

namespace Memory

theorem failsPlainly_matching (rows : List Value) (p : Predicate) :
    FailsPlainly (matching rows p) :=
  Predicate.failsPlainly_select p.failsPlainly_holds rows

theorem failsPlainly_keyed (field : String) : ∀ rows : List Value, FailsPlainly (keyed field rows)
  | [] => failsOnly_ok _
  | row :: rest => by
      have hfield : FailsPlainly (row.field field) := by
        rw [Value.field]
        split
        · exact failsOnly_ok _
        · exact failsOnly_error trivial
      rw [keyed]
      exact hfield.bind_both (failsPlainly_keyed field rest) _

theorem failsPlainly_sortByAll : ∀ (keys : List SortKey) (rows : List Value),
    FailsPlainly (sortByAll keys rows)
  | [], _ => failsOnly_ok _
  | k :: keys, rows => by
      rw [sortByAll]
      apply (failsPlainly_sortByAll keys rows).bind
      intro sorted _
      rw [sortBy]
      apply (failsPlainly_keyed k.field sorted).bind
      intro items _
      cases k.direction with
      | ascending => exact (Sorting.failsPlainly_sortAscending items).bind_pure _
      | descending => exact (Sorting.failsPlainly_sortDescending items).bind_pure _

theorem failsPlainly_window (rows : List Value) (w : Window) :
    FailsPlainly (window rows w) := by
  rw [window]
  apply (failsPlainly_matching rows w.predicate).bind
  intro matched _
  exact (failsPlainly_sortByAll w.order.keys matched).bind_pure _

end Memory

/-! ## Cursors of rows -/

namespace Key

theorem failsPlainly_write (v : Value) : FailsPlainly (write v) := by
  unfold write
  split
  case h_9 => exact failsOnly_error trivial
  all_goals exact failsOnly_ok _

theorem failsPlainly_writeAll : ∀ vs : List Value, FailsPlainly (writeAll vs)
  | [] => failsOnly_ok _
  | v :: rest => by
      rw [writeAll]
      exact (failsPlainly_write v).bind_both (failsPlainly_writeAll rest) _

end Key

namespace Sealer

theorem failsPlainly_keyValues (row : Value) : ∀ keys : List SortKey,
    FailsPlainly (keyValues row keys)
  | [] => failsOnly_ok _
  | k :: rest => by
      rw [keyValues]
      split
      · exact failsOnly_error trivial
      · exact failsOnly_error trivial
      · exact (failsPlainly_keyValues row rest).bind_pure _

theorem failsPlainly_sealRow (s : Sealer) (order : SortOrder) (row : Value) (side : Side) :
    FailsPlainly (s.sealRow order row side) := by
  rw [sealRow]
  apply (failsPlainly_keyValues row order.keys).bind
  intro values _
  rw [sealPosition]
  split
  · apply (Key.failsPlainly_writeAll values).bind
    intro keys _
    split
    · exact failsOnly_ok _
    · exact failsOnly_error trivial
  · exact failsOnly_error trivial

end Sealer

end Listing
