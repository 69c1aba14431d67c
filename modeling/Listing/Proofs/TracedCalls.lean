import Listing.Proofs.FaultKinds
import Listing.Proofs.TracedResult

/-!
# Calls of traced computations

The calls of a computation in steps are those of its steps, up to the first that stops. Two things
about calls are carried from step to step: that a report comes before any call
(`Traced.ReportsFirst`), and that of two computations one stops at the first call of the other
(`Traced.StopsAtCall`).
-/

set_option autoImplicit false

namespace Listing

namespace Traced

variable {α β : Type} {x y : Traced α} {f g : α → Traced β} {e : Fault}

@[simp]
theorem calls_pure (a : α) : (pure a : Traced α).calls = [] :=
  rfl

@[simp]
theorem calls_ofResult (r : Result α) : (ofResult r).calls = [] :=
  rfl

@[simp]
theorem calls_liftM (r : Result α) : (liftM r : Traced α).calls = [] :=
  rfl

@[simp]
theorem calls_log (level : Level) (name : String) (fields : List (String × Value)) :
    (log level name fields).calls = [] :=
  rfl

theorem calls_bind_of_ok {a : α} (hx : x.result = .ok a) :
    (x >>= f).calls = x.calls ++ (f a).calls := by
  change (x.andThen f).calls = _
  simp only [andThen, hx, calls, List.filterMap_append]

theorem calls_bind_of_error (hx : x.result = .error e) : (x >>= f).calls = x.calls := by
  change (x.andThen f).calls = _
  simp only [andThen, hx, calls]

/-- Results taken one after another are taken together. -/
theorem liftM_bind (r : Result α) (g : α → Result β) :
    (liftM (r >>= g) : Traced β) = (liftM r : Traced α) >>= fun a => liftM (g a) := by
  cases r <;> rfl

/-- A step that is followed by no call makes all the calls. -/
theorem calls_bind_of_quiet (hf : ∀ a, (f a).calls = []) : (x >>= f).calls = x.calls := by
  cases hx : x.result with
  | error e => exact calls_bind_of_error hx
  | ok a => rw [calls_bind_of_ok hx, hf a, List.append_nil]

theorem calls_bind_eq_nil (hx : x.calls = []) (hf : ∀ a, (f a).calls = []) :
    (x >>= f).calls = [] := by
  rw [calls_bind_of_quiet hf, hx]

/-- A result in two steps comes from results of both, and so do the calls. -/
theorem exists_of_bind_eq_ok {b : β} (h : (x >>= f).result = .ok b) :
    ∃ a, x.result = .ok a ∧ (f a).result = .ok b ∧ (x >>= f).calls = x.calls ++ (f a).calls := by
  rw [result_bind] at h
  obtain ⟨a, hx, hb⟩ := Result.bind_eq_ok.1 h
  exact ⟨a, hx, hb, calls_bind_of_ok hx⟩

/-! ## Reports before calls -/

/-- A computation that ends in a report has made no call. -/
def ReportsFirst (x : Traced α) : Prop :=
  ∀ r, x.result = .error (.reported r) → x.calls = []

theorem reportsFirst_of_failsPlainly (hx : FailsPlainly x.result) : x.ReportsFirst :=
  fun r hr => absurd hr (hx.ne_reported r)

/-- What is done before the first call may be followed by calls. -/
theorem ReportsFirst.bind (hx : x.calls = [])
    (hf : ∀ a, x.result = .ok a → (f a).ReportsFirst) : (x >>= f).ReportsFirst := by
  intro r hr
  cases hresult : x.result with
  | error e => rw [calls_bind_of_error hresult, hx]
  | ok a =>
      rw [result_bind, hresult, Result.ok_bind] at hr
      rw [calls_bind_of_ok hresult, hx, hf a hresult r hr, List.append_nil]

theorem ReportsFirst.bind_pure (hx : x.ReportsFirst) (g : α → β) :
    (x >>= fun a => pure (g a)).ReportsFirst := by
  intro r hr
  cases hresult : x.result with
  | error e =>
      rw [result_bind, hresult, Result.error_bind] at hr
      obtain rfl := Except.error.inj hr
      rw [calls_bind_of_error hresult, hx r hresult]
  | ok a =>
      rw [result_bind, hresult, Result.ok_bind] at hr
      exact absurd hr (by simp)

/-! ## The first call -/

/-- Where `y` gives a result, `x` stops by the fault at the first call of `y`. -/
def StopsAtCall (e : Fault) (x y : Traced α) : Prop :=
  ∀ a, y.result = .ok a → x.result = .error e ∧ ∃ c, y.calls.head? = some c ∧ x.calls = [c]

/-- The first call is in the first step. -/
theorem StopsAtCall.bind (h : StopsAtCall e x y) : StopsAtCall e (x >>= f) (y >>= g) := by
  intro b hb
  obtain ⟨a, hy, -, hcalls⟩ := exists_of_bind_eq_ok hb
  obtain ⟨hx, c, hfirst, hc⟩ := h a hy
  refine ⟨?_, c, ?_, ?_⟩
  · rw [result_bind, hx, Result.error_bind]
  · rw [hcalls, List.head?_append, hfirst, Option.some_or]
  · rw [calls_bind_of_error hx, hc]

/-- The first call is after a step that both have. -/
theorem StopsAtCall.after (hx : x.calls = [])
    (h : ∀ a, x.result = .ok a → StopsAtCall e (f a) (g a)) :
    StopsAtCall e (x >>= f) (x >>= g) := by
  intro b hb
  obtain ⟨a, hresult, hb, hcalls⟩ := exists_of_bind_eq_ok hb
  obtain ⟨hf, c, hfirst, hc⟩ := h a hresult b hb
  refine ⟨?_, c, ?_, ?_⟩
  · rw [result_bind, hresult, Result.ok_bind, hf]
  · rw [hcalls, hx, List.nil_append, hfirst]
  · rw [calls_bind_of_ok hresult, hx, List.nil_append, hc]

end Traced

end Listing
