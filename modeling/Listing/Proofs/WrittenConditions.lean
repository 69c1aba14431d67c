import Mathlib.Data.Bool.AllAny
import Mathlib.Data.List.Basic
import Listing.Proofs.ParameterNames
import Listing.Proofs.TableMeaning

/-!
# Conditions as they are written

No piece of the text of a condition depends on the values it compares columns to: it is the text of
the condition with these values taken out (`Condition.pieces_bare`). The text has one parameter for
each place where something is bound, named after the column there, and the parameters are listed in
the order of the text (`Condition.names_parameters`, `Condition.values_parameters`). Simplifying a
group depends on no value and keeps the places of its parts, unless a constant decides the group
(`Condition.bare_gather`, `Condition.places_gather`).
-/

set_option autoImplicit false

namespace Listing

/-! ## Conditions without their values -/

namespace Condition

/-- A list with its values taken out, unless null is among them: such a list is written value by
value. -/
def bareList (vs : List Value) : List Value :=
  if vs.any (·.isNull) then vs else []

mutual

/-- The condition with the values taken out that it is compared to. -/
def bare : Condition → Condition
  | relates c r _ => relates c r .null
  | like c _ anyCase negated => like c .null anyCase negated
  | among c vs negated => among c (bareList vs) negated
  | group conjunctive parts => group conjunctive (bareAll parts)
  | c => c

/-- The conditions with their values taken out. -/
def bareAll : List Condition → List Condition
  | [] => []
  | c :: rest => c.bare :: bareAll rest

end

theorem bareAll_eq_map (parts : List Condition) : bareAll parts = parts.map bare := by
  induction parts with
  | nil => rfl
  | cons c parts ih => rw [bareAll, ih, List.map_cons]

section

variable {conjunctive : Bool}

theorem isConstant_bare (b : Bool) (c : Condition) : c.bare.isConstant b = c.isConstant b := by
  cases c <;> rfl

theorem isEnclosed_bare (c : Condition) :
    c.bare.isEnclosed conjunctive = c.isEnclosed conjunctive := by
  cases c <;> rfl

theorem members_bare (c : Condition) :
    members conjunctive c.bare = (members conjunctive c).map bare := by
  cases c with
  | group b parts =>
      rw [bare, members, members]
      split
      · rw [bareAll_eq_map]
      · rw [List.map_singleton, bare]
  | _ => rfl

/-- A group is simplified in one way whatever its parts are compared to. -/
theorem bare_gather (parts : List Condition) :
    (gather conjunctive parts).bare = gather conjunctive (parts.map bare) := by
  have hany : (parts.map bare).any (isConstant !conjunctive) =
      parts.any (isConstant !conjunctive) := by
    rw [List.any_map]
    exact congrArg parts.any (funext (isConstant_bare _))
  have hfilter : (parts.map bare).filter (!isConstant conjunctive ·) =
      (parts.filter (!isConstant conjunctive ·)).map bare := by
    rw [List.filter_map]
    exact congrArg (fun p => (parts.filter p).map bare)
      (funext fun c => congrArg (!·) (isConstant_bare _ c))
  rw [gather, gather, hany, hfilter, List.isEmpty_map]
  split
  · rfl
  split
  · rfl
  generalize parts.filter (!isConstant conjunctive ·) = kept
  rcases kept with _ | ⟨c, _ | ⟨d, rest⟩⟩
  · rfl
  · rfl
  · change bare (group conjunctive _) =
      group conjunctive ((List.map bare (c :: d :: rest)).flatMap _)
    rw [bare, bareAll_eq_map, List.map_flatMap, List.flatMap_map]
    exact congrArg (fun f => group conjunctive ((c :: d :: rest).flatMap f))
      (funext fun e => (members_bare e).symm)

end

/-! ## The text without the values -/

theorem listPieces_bareList (stem : String) (vs : List Value) :
    listPieces stem (bareList vs) = listPieces stem vs := by
  rw [bareList]
  split
  · rfl
  · next h => rw [listPieces, listPieces, if_neg h, List.any_nil, if_neg Bool.false_ne_true]

theorem groupPieces_cons_cons (table : String) (conjunctive : Bool) (c d : Condition)
    (rest : List Condition) : groupPieces table conjunctive (c :: d :: rest) =
      enclose (c.isEnclosed conjunctive) (c.pieces table) ++
        .fixed (if conjunctive then " AND " else " OR ") ::
          groupPieces table conjunctive (d :: rest) :=
  rfl

mutual

/-- **No piece of the text of a condition depends on a value.** -/
theorem pieces_bare (table : String) : ∀ c : Condition, c.bare.pieces table = c.pieces table
  | constant _ | settled _ | relates _ _ _ | null _ _ | truth _ _ _ | like _ _ _ _ => rfl
  | among c vs negated => by
      rw [bare, pieces, pieces, amongPieces, amongPieces, listPieces_bareList]
  | group conjunctive parts => by
      rw [bare, pieces, pieces, groupPieces_bareAll]

theorem groupPieces_bareAll (table : String) (conjunctive : Bool) : ∀ parts : List Condition,
    groupPieces table conjunctive (bareAll parts) = groupPieces table conjunctive parts
  | [] => rfl
  | [c] => by
      rw [bareAll, bareAll, groupPieces, groupPieces, pieces_bare table c, isEnclosed_bare]
  | c :: d :: rest => by
      have hrest := groupPieces_bareAll table conjunctive (d :: rest)
      rw [bareAll] at hrest
      rw [bareAll, bareAll, groupPieces_cons_cons, groupPieces_cons_cons, pieces_bare table c,
        isEnclosed_bare, hrest]

end

theorem pieces_eq_of_bare {c d : Condition} (table : String) (h : c.bare = d.bare) :
    c.pieces table = d.pieces table := by
  rw [← pieces_bare table c, h, pieces_bare]

/-! ## The places of a text -/

/-- What a value is bound as, unless a column is tested for it. -/
def compared (v : Value) : List Value :=
  if isTested v then [] else [v]

/-- What the values of a list are bound as: the list as a whole, or its values one by one where a
null is among them. -/
def listed (vs : List Value) : List Value :=
  if vs.any (·.isNull) then vs.filter (!·.isNull) else [.list vs]

mutual

/-- The columns that a condition compares to something bound, with what is bound, in the order of
its text. -/
def places : Condition → List (Column × Value)
  | relates c _ v => [(c, v)]
  | like c p _ _ => [(c, p)]
  | among c vs _ => (listed vs).map (c, ·)
  | group _ parts => placesOf parts
  | _ => []

/-- The places of conditions, in order. -/
def placesOf : List Condition → List (Column × Value)
  | [] => []
  | c :: rest => c.places ++ placesOf rest

end

mutual

theorem parameterValues_eq : ∀ c : Condition, c.parameterValues = c.places.map (·.2)
  | constant _ | settled _ | relates _ _ _ | null _ _ | truth _ _ _ | like _ _ _ _ => rfl
  | among c vs _ => by
      rw [places, List.map_map]
      exact (List.map_id (listed vs)).symm
  | group _ parts => by
      rw [places, parameterValues, parameterValuesOf_eq]

theorem parameterValuesOf_eq : ∀ parts : List Condition,
    parameterValuesOf parts = (placesOf parts).map (·.2)
  | [] => rfl
  | c :: rest => by
      rw [placesOf, parameterValuesOf, parameterValues_eq c, parameterValuesOf_eq rest,
        List.map_append]

end

/-- The stems of the parameters that pieces have a place for. -/
def stemsOf (pieces : List Piece) : List String :=
  pieces.filterMap (·.stem?)

theorem stemsOf_append (ps qs : List Piece) : stemsOf (ps ++ qs) = stemsOf ps ++ stemsOf qs :=
  List.filterMap_append

theorem stemsOf_enclose (due : Bool) (pieces : List Piece) :
    stemsOf (enclose due pieces) = stemsOf pieces := by
  cases due with
  | false => rfl
  | true => exact (stemsOf_append pieces [.fixed ")"]).trans (List.append_nil _)

theorem stemsOf_listedPieces (stem : String) (vs : List Value) :
    stemsOf (listedPieces stem vs) = (vs.filter (!·.isNull)).map fun _ => stem := by
  induction vs using listedPieces.induct with
  | case1 => rfl
  | case2 v =>
      rw [listedPieces, List.filter_singleton]
      cases v.isNull <;> rfl
  | case3 v rest h ih =>
      -- the comma has no place of its own
      have hrest : stemsOf (.fixed ", " :: listedPieces stem rest) =
          (rest.filter (!·.isNull)).map fun _ => stem := ih
      rw [listedPieces, ← List.singleton_append, stemsOf_append, hrest, List.filter_cons]
      · cases v.isNull <;> rfl
      · exact h

theorem stemsOf_listPieces (stem : String) (vs : List Value) :
    stemsOf (listPieces stem vs) = (listed vs).map fun _ => stem := by
  rw [listPieces, listed]
  split
  · exact stemsOf_listedPieces stem vs
  · rfl

mutual

/-- A text has one parameter for each place, under the stem of the column there. -/
theorem stemsOf_pieces (table : String) : ∀ c : Condition,
    stemsOf (c.pieces table) = c.places.map (·.1.stem)
  | constant _ | settled _ | relates _ _ _ | null _ _ | truth _ _ _ => rfl
  | like c p anyCase negated => by
      cases anyCase <;> rfl
  | among c vs negated => by
      have hlist : (listed vs).map (fun _ => c.stem) =
          ((listed vs).map fun v => (c, v)).map (·.1.stem) := by
        rw [List.map_map]
        rfl
      rw [pieces, places, ← hlist, ← stemsOf_listPieces]
      cases negated with
      | false => exact (stemsOf_append _ [.fixed ")"]).trans (List.append_nil _)
      | true => exact (stemsOf_append _ [.fixed "))"]).trans (List.append_nil _)
  | group conjunctive parts => by
      rw [pieces, places, stemsOf_groupPieces]

theorem stemsOf_groupPieces (table : String) (conjunctive : Bool) : ∀ parts : List Condition,
    stemsOf (groupPieces table conjunctive parts) = (placesOf parts).map (·.1.stem)
  | [] => rfl
  | [c] => by
      rw [groupPieces, stemsOf_enclose, stemsOf_pieces table c, placesOf, placesOf, List.append_nil]
  | c :: d :: rest => by
      -- the word of the group has no place of its own
      have hrest : stemsOf (.fixed (if conjunctive then " AND " else " OR ") ::
          groupPieces table conjunctive (d :: rest)) = (placesOf (d :: rest)).map (·.1.stem) :=
        stemsOf_groupPieces table conjunctive (d :: rest)
      rw [groupPieces_cons_cons, stemsOf_append, stemsOf_enclose, stemsOf_pieces table c, hrest,
        ← List.map_append]
      rfl

end

/-- The names of the parameters, which the name of the table has no part in. -/
theorem names_pieces (table : String) (c : Condition) :
    Piece.names (c.pieces table) = parameterNames [] (c.places.map (·.1.stem)) := by
  rw [Piece.names, ← stemsOf_pieces table, stemsOf]

theorem parameters_eq (c : Condition) :
    c.parameters = (parameterNames [] (c.places.map (·.1.stem))).zip (c.places.map (·.2)) := by
  rw [parameters, names_pieces, parameterValues_eq]

/-- Each place of a text has a parameter, which is listed under its name there. -/
theorem names_parameters (table : String) (c : Condition) :
    c.parameters.map (·.1) = Piece.names (c.pieces table) := by
  rw [parameters_eq, names_pieces]
  exact List.map_fst_zip (by simp [length_parameterNames])

theorem values_parameters (c : Condition) : c.parameters.map (·.2) = c.places.map (·.2) := by
  rw [parameters_eq]
  exact List.map_snd_zip (by simp [length_parameterNames])

/-! ## The places of a group -/

section

variable {conjunctive : Bool}

theorem placesOf_eq_flatMap (parts : List Condition) : placesOf parts = parts.flatMap places := by
  induction parts with
  | nil => rfl
  | cons c parts ih => rw [placesOf, ih, List.flatMap_cons]

theorem places_of_isConstant {b : Bool} {c : Condition} (h : c.isConstant b = true) :
    c.places = [] := by
  rw [eq_constant_of_isConstant h]
  rfl

theorem flatMap_places_members (c : Condition) :
    (members conjunctive c).flatMap places = c.places := by
  cases c with
  | group b parts =>
      rw [members]
      split
      · rw [places, placesOf_eq_flatMap]
      · exact List.flatMap_singleton _ _
  | _ => exact List.flatMap_singleton _ _

/-- A constant that is dropped has no places. -/
theorem flatMap_places_filter (conjunctive : Bool) (parts : List Condition) :
    (parts.filter (!isConstant conjunctive ·)).flatMap places = parts.flatMap places := by
  induction parts with
  | nil => rfl
  | cons c parts ih =>
      rw [List.filter_cons, List.flatMap_cons]
      split
      · rw [List.flatMap_cons, ih]
      · next h =>
          rw [ih, places_of_isConstant (by simpa using h), List.nil_append]

/-- **Simplifying a group keeps the places of its parts**, unless a constant decides it. -/
theorem places_gather (parts : List Condition) :
    (gather conjunctive parts).places =
      if parts.any (isConstant !conjunctive) then [] else parts.flatMap places := by
  rw [gather]
  split
  · next h => rw [List.isEmpty_iff.1 h]; rfl
  split
  · rfl
  rw [← flatMap_places_filter conjunctive]
  split
  · next h => rw [h]; rfl
  · next c h => rw [h, List.flatMap_singleton]
  · rw [places, placesOf_eq_flatMap, List.flatMap_assoc]
    simp only [flatMap_places_members]

/-- A group with parts is simplified to no constant that could be dropped in its turn. -/
theorem isConstant_gather (b : Bool) {parts : List Condition} (h : parts ≠ []) :
    (gather conjunctive parts).isConstant b = false := by
  rw [gather, if_neg (by simpa using h)]
  split
  · rfl
  next hdecided =>
  split
  · rfl
  · next c hone =>
      -- the part that is left is neither of the two constants
      have hkept : c ∈ parts.filter (!isConstant conjunctive ·) := by
        rw [hone]
        exact List.mem_singleton_self c
      obtain ⟨hmem, hneutral⟩ := List.mem_filter.1 hkept
      rcases Bool.eq_or_eq_not b conjunctive with rfl | rfl
      · exact Bool.not_eq_true' _ ▸ hneutral
      · exact Bool.eq_false_iff.2 fun hc => hdecided (List.any_eq_true.2 ⟨c, hmem, hc⟩)
  · rfl

end

/-! ## The places of a leaf -/

theorem places_equality (c : Column) (negated : Bool) (v : Value) :
    (equality c negated v).places = (compared v).map (c, ·) := by
  cases v <;> rfl

theorem isConstant_equality (c : Column) (negated : Bool) (v : Value) (b : Bool) :
    (equality c negated v).isConstant b = false := by
  cases v <;> rfl

theorem ordering_eq_ok {c : Column} {op : Comparison} {v : Value} {d : Condition}
    (h : ordering c op v = .ok d) : compared v = [v] ∧ d = relates c (.order op) v := by
  rw [ordering] at h
  split at h
  · exact absurd h (Result.error_ne_ok _ _)
  · next hv => exact ⟨if_neg hv, (Except.ok.inj h).symm⟩

theorem pattern_eq_ok {c : Column} {p : Value} {anyCase negated : Bool} {d : Condition}
    (h : pattern c p anyCase negated = .ok d) :
    compared p = [p] ∧ d = like c p anyCase negated := by
  rw [pattern] at h
  split at h
  · exact absurd h (Result.error_ne_ok _ _)
  · next hp => exact ⟨if_neg hp, (Except.ok.inj h).symm⟩

end Condition

end Listing
