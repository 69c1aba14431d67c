import Mathlib.Data.List.Basic
import Listing.Trace

/-!
# Results of traced computations

The result of a traced computation depends on the results of its steps alone, not on the notes they
leave. These equations carry a statement about results through the steps of a computation.
-/

set_option autoImplicit false

namespace Listing

theorem Result.ok_bind {α β : Type} (a : α) (f : α → Result β) :
    ((.ok a : Result α) >>= f) = f a :=
  rfl

theorem Result.error_bind {α β : Type} (e : Fault) (f : α → Result β) :
    ((.error e : Result α) >>= f) = .error e :=
  rfl

theorem Result.error_ne_ok {α : Type} (e : Fault) (a : α) : (.error e : Result α) ≠ .ok a :=
  nofun

theorem reject_ne_ok {α : Type} (r : Report) (a : α) : (reject r : Result α) ≠ .ok a :=
  nofun

/-- A result that is there comes from results of both steps, whatever could have stopped them. -/
theorem Result.bind_eq_ok {ε α β : Type} {x : Except ε α} {f : α → Except ε β} {b : β} :
    (x >>= f) = .ok b ↔ ∃ a, x = .ok a ∧ f a = .ok b := by
  cases x with
  | error e =>
      constructor
      · intro h
        exact absurd h (by simp [bind, Except.bind])
      · rintro ⟨a, ha, -⟩
        exact absurd ha (by simp)
  | ok a =>
      constructor
      · intro h
        exact ⟨a, rfl, h⟩
      · rintro ⟨a', ha, h⟩
        obtain rfl := Except.ok.inj ha
        exact h

/-- A fault of two steps is one of the first, or one of the second after a result of the first. -/
theorem Result.bind_eq_error {ε α β : Type} {x : Except ε α} {f : α → Except ε β} {e : ε} :
    (x >>= f) = .error e ↔ x = .error e ∨ ∃ a, x = .ok a ∧ f a = .error e := by
  cases x with
  | error e' =>
      constructor
      · intro h
        obtain rfl : e' = e := Except.error.inj h
        exact Or.inl rfl
      · rintro (h | ⟨a, ha, -⟩)
        · obtain rfl := Except.error.inj h
          rfl
        · exact absurd ha (by simp)
  | ok a =>
      constructor
      · intro h
        exact Or.inr ⟨a, rfl, h⟩
      · rintro (h | ⟨a', ha, h⟩)
        · exact absurd h (by simp)
        · obtain rfl := Except.ok.inj ha
          exact h

theorem Result.bind_pure_eq_error {ε α β : Type} {x : Except ε α} {g : α → β} {e : ε} :
    (x >>= fun a => pure (g a)) = .error e ↔ x = .error e := by
  rw [Result.bind_eq_error]
  constructor
  · rintro (h | ⟨a, -, h⟩)
    · exact h
    · exact absurd h (by simp [pure, Except.pure])
  · intro h
    exact Or.inl h

theorem Result.map_eq_ok {ε α β : Type} {x : Except ε α} {f : α → β} {b : β} :
    x.map f = .ok b ↔ ∃ a, x = .ok a ∧ f a = b := by
  cases x <;> simp [Except.map]

/-- Where a list is read entry by entry, its result is what the entries read as. -/
theorem Result.forall₂_of_readAll {α β : Type} (read : α → Result β)
    (readAll : List α → Result (List β)) (hnil : readAll [] = .ok [])
    (hcons : ∀ a rest, readAll (a :: rest) = do return (← read a) :: (← readAll rest))
    {as : List α} {bs : List β} (h : readAll as = .ok bs) :
    List.Forall₂ (fun a b => read a = .ok b) as bs := by
  induction as generalizing bs with
  | nil =>
      obtain rfl := Except.ok.inj (hnil.symm.trans h)
      exact .nil
  | cons a rest ih =>
      rw [hcons] at h
      obtain ⟨b, hb, h⟩ := Result.bind_eq_ok.1 h
      obtain ⟨others, hothers, h⟩ := Result.bind_eq_ok.1 h
      obtain rfl := Except.ok.inj h
      exact .cons hb (ih hothers)

theorem exists_of_mem_forall₂ {α β : Type} {R : α → β → Prop} {as : List α} {bs : List β}
    (h : List.Forall₂ R as bs) {b : β} (hb : b ∈ bs) : ∃ a ∈ as, R a b := by
  induction h with
  | nil => exact absurd hb List.not_mem_nil
  | @cons a b' as bs hab hrest ih =>
      rcases List.mem_cons.1 hb with rfl | hb
      · exact ⟨a, List.mem_cons_self, hab⟩
      · obtain ⟨a', ha', hab'⟩ := ih hb
        exact ⟨a', List.mem_cons_of_mem a ha', hab'⟩

namespace Traced

variable {α β : Type}

@[simp]
theorem result_pure (a : α) : (pure a : Traced α).result = .ok a :=
  rfl

@[simp]
theorem result_ofResult (r : Result α) : (ofResult r).result = r :=
  rfl

@[simp]
theorem result_liftM (r : Result α) : (liftM r : Traced α).result = r :=
  rfl

@[simp]
theorem result_log (level : Level) (name : String) (fields : List (String × Value)) :
    (log level name fields).result = .ok () :=
  rfl

@[simp]
theorem result_note (n : Note) : (note n).result = .ok () :=
  rfl

@[simp]
theorem result_bind (x : Traced α) (f : α → Traced β) :
    (x >>= f).result = x.result >>= fun a => (f a).result := by
  change (x.andThen f).result = _
  rw [andThen]
  cases x.result <;> rfl

end Traced

end Listing
