import Mathlib.Data.List.Nodup
import Mathlib.Tactic.Tauto
import Listing.Entries

/-!
# Entries that are put

An entry that is put is the one under its name, and the others stay (`Entries.mem_put`,
`Entries.get?_put`). So of a list put over another the later entries count, and the earlier ones
under other names (`Entries.mem_override`, `Entries.get?_override_of_mem`,
`Entries.get?_override_of_not_mem`). A list put entry by entry stays as it is if and only if no name
comes twice in it (`Entries.ofList_eq_self_iff`).
-/

set_option autoImplicit false

namespace Listing.Entries

variable {α : Type} {name s : String} {a b : α} {entries later : List (String × α)}

/-! ## Entries under distinct names -/

theorem mem_names_put : s ∈ (put name a entries).map (·.1) ↔ s = name ∨ s ∈ entries.map (·.1) := by
  induction entries with
  | nil => simp [put]
  | cons e entries ih =>
      obtain ⟨t, d⟩ := e
      rw [put]
      split
      · next h => simp [h]
      · rw [List.map_cons, List.map_cons, List.mem_cons, List.mem_cons, ih]
        exact or_left_comm

theorem nodup_put (h : (entries.map (·.1)).Nodup) : ((put name a entries).map (·.1)).Nodup := by
  induction entries with
  | nil => simp [put]
  | cons e entries ih =>
      obtain ⟨t, d⟩ := e
      obtain ⟨hnew, hrest⟩ := List.nodup_cons.1 h
      rw [put]
      split
      · exact h
      · next hne =>
          refine List.nodup_cons.2 ⟨?_, ih hrest⟩
          rw [mem_names_put]
          exact not_or.2 ⟨hne, hnew⟩

/-- The entry that was put is the only one under its name. -/
theorem mem_put (h : (entries.map (·.1)).Nodup) :
    (s, b) ∈ put name a entries ↔ (s, b) = (name, a) ∨ s ≠ name ∧ (s, b) ∈ entries := by
  induction entries with
  | nil => simp [put]
  | cons e entries ih =>
      obtain ⟨t, d⟩ := e
      obtain ⟨hnew, hrest⟩ := List.nodup_cons.1 h
      rw [put]
      split
      · next heq =>
          obtain rfl : t = name := heq
          have hne : (s, b) ∈ entries → s ≠ t := fun hmem hst =>
            hnew (List.mem_map.2 ⟨(s, b), hmem, hst⟩)
          simp only [List.mem_cons, Prod.mk.injEq]
          tauto
      · next hne =>
          have hne' : s = t → s ≠ name := fun hst hname => hne (hst.symm.trans hname)
          rw [List.mem_cons, ih hrest]
          simp only [List.mem_cons, Prod.mk.injEq]
          tauto

theorem nodup_override (h : (entries.map (·.1)).Nodup) (later : List (String × α)) :
    ((override entries later).map (·.1)).Nodup := by
  rw [override]
  induction later generalizing entries with
  | nil => exact h
  | cons e later ih => exact ih (nodup_put h)

theorem mem_override (h : (entries.map (·.1)).Nodup) (hlater : (later.map (·.1)).Nodup) :
    (s, b) ∈ override entries later ↔
      (s, b) ∈ later ∨ s ∉ later.map (·.1) ∧ (s, b) ∈ entries := by
  rw [override]
  induction later generalizing entries with
  | nil => simp
  | cons e later ih =>
      obtain ⟨t, d⟩ := e
      obtain ⟨hnew, hrest⟩ := List.nodup_cons.1 hlater
      rw [List.foldl_cons, ih (nodup_put h) hrest, mem_put h, List.map_cons, List.mem_cons,
        List.mem_cons]
      have hne : (s, b) = (t, d) → s ∉ later.map (·.1) := fun heq hmem =>
        hnew ((Prod.mk.inj heq).1 ▸ hmem)
      tauto

/-! ## The entry under a name -/

theorem get?_put (s : String) (a : α) (entries : List (String × α)) :
    get? name (put s a entries) = if s = name then some a else get? name entries := by
  induction entries with
  | nil => rfl
  | cons e entries ih =>
      obtain ⟨t, b⟩ := e
      rw [put]
      split
      · next heq =>
          obtain rfl : t = s := heq
          rw [get?, get?]
          split <;> rfl
      · next hne =>
          rw [get?, get?, ih]
          split
          · next heq => rw [if_neg fun hs => hne (heq.trans hs.symm)]
          · rfl

/-- What is put under other names leaves an entry as it is. -/
theorem get?_override_of_not_mem (h : name ∉ later.map (·.1)) (entries : List (String × α)) :
    get? name (override entries later) = get? name entries := by
  rw [override]
  induction later generalizing entries with
  | nil => rfl
  | cons e later ih =>
      rw [List.map_cons, List.mem_cons, not_or] at h
      rw [List.foldl_cons, ih h.2, get?_put, if_neg (Ne.symm h.1)]

/-- What is put under a name does not depend on what stood there. -/
theorem get?_override_of_mem (h : name ∈ later.map (·.1)) (entries others : List (String × α)) :
    get? name (override entries later) = get? name (override others later) := by
  rw [override, override]
  induction later generalizing entries others with
  | nil => exact absurd h List.not_mem_nil
  | cons e later ih =>
      by_cases hlater : name ∈ later.map (·.1)
      · exact ih hlater _ _
      · have heq : name = e.1 := (List.mem_cons.1 h).resolve_right hlater
        have hput : ∀ es : List (String × α),
            get? name (override (put e.1 e.2 es) later) = some e.2 := by
          intro es
          rw [get?_override_of_not_mem hlater, get?_put, if_pos heq.symm]
        exact (hput entries).trans (hput others).symm

theorem get?_filter (p : String → Bool) (entries : List (String × α)) :
    get? name (entries.filter (p ·.1)) = if p name then get? name entries else none := by
  induction entries with
  | nil => simp [get?]
  | cons e entries ih =>
      obtain ⟨s, a⟩ := e
      rw [List.filter_cons, get?]
      by_cases hs : s = name
      · subst hs
        by_cases hp : p s = true
        · simp [hp, get?]
        · simp [hp, ih]
      · rw [if_neg hs]
        by_cases hp : p s = true
        · simp [hp, get?, hs, ih]
        · simp [hp, ih]

theorem filter_put (p : String → Bool) (s : String) (a : α) (entries : List (String × α)) :
    (put s a entries).filter (p ·.1) =
      if p s then put s a (entries.filter (p ·.1)) else entries.filter (p ·.1) := by
  induction entries with
  | nil => simp [put, List.filter_cons]
  | cons e entries ih =>
      obtain ⟨t, b⟩ := e
      rw [put]
      by_cases hs : t = s
      · subst hs
        by_cases hp : p t = true
        · simp [hp, put]
        · simp [hp]
      · rw [if_neg hs, List.filter_cons, List.filter_cons, ih]
        by_cases hp : p s = true <;> by_cases ht : p t = true <;> simp [hp, ht, put, hs]

/-- The entries under some names, of a list put over another. -/
theorem filter_override (p : String → Bool) (entries later : List (String × α)) :
    (override entries later).filter (p ·.1) =
      override (entries.filter (p ·.1)) (later.filter (p ·.1)) := by
  rw [override, override]
  induction later generalizing entries with
  | nil => rfl
  | cons e later ih =>
      rw [List.foldl_cons, ih, filter_put, List.filter_cons]
      by_cases hp : p e.1 = true <;> simp [hp]

/-! ## Entries put one after another -/

/-- An entry under a new name is put at the end. -/
theorem put_of_not_mem (a : α) (h : name ∉ entries.map (·.1)) :
    put name a entries = entries ++ [(name, a)] := by
  induction entries with
  | nil => rfl
  | cons e entries ih =>
      obtain ⟨s, b⟩ := e
      simp only [List.map_cons, List.mem_cons, not_or] at h
      rw [put, if_neg (Ne.symm h.1), ih h.2, List.cons_append]

/-- Entries put under new names, one after another, keep their order. -/
theorem override_of_nodup (h : ((entries ++ later).map (·.1)).Nodup) :
    override entries later = entries ++ later := by
  rw [override]
  induction later generalizing entries with
  | nil => simp
  | cons e later ih =>
      have hnew : e.1 ∉ entries.map (·.1) := by
        intro hmem
        rw [List.map_append, List.map_cons, List.nodup_append] at h
        exact h.2.2 _ hmem _ (by simp) rfl
      have hassoc : entries ++ e :: later = entries ++ [e] ++ later := by simp
      rw [List.foldl_cons, put_of_not_mem e.2 hnew, hassoc]
      exact ih (hassoc ▸ h)

theorem ofList_of_nodup (h : (entries.map (·.1)).Nodup) : ofList entries = entries :=
  -- the list is put over the empty one
  (override_of_nodup h : override [] entries = [] ++ entries)

/-- All of the entries are kept as they are if and only if no name comes twice. -/
theorem ofList_eq_self_iff : ofList entries = entries ↔ (entries.map (·.1)).Nodup := by
  refine ⟨fun h => ?_, ofList_of_nodup⟩
  have hnone : (([] : List (String × α)).map (·.1)).Nodup := List.nodup_nil
  have hnodup : ((ofList entries).map (·.1)).Nodup := nodup_override hnone entries
  rwa [h] at hnodup

end Listing.Entries
