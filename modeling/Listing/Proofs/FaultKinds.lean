import Listing.Fault

/-!
# Kinds of faults

Which faults can stop a computation is a condition on its faults that holds step by step
(`FailsOnly`): a computation in steps fails only as its steps fail. A fault is plain if it is no
report, that is, if it is not one of the errors the library makes for its callers.
-/

set_option autoImplicit false

namespace Listing

/-- Every fault by which a computation may stop satisfies a condition. -/
def FailsOnly {α : Type} (allowed : Fault → Prop) (x : Result α) : Prop :=
  ∀ e, x = .error e → allowed e

section

variable {α β γ : Type} {allowed : Fault → Prop}

theorem failsOnly_ok (a : α) : FailsOnly allowed (.ok a) := by
  rintro e ⟨⟩

theorem failsOnly_error {e : Fault} (h : allowed e) : FailsOnly allowed (.error e : Result α) := by
  rintro e' ⟨⟩
  exact h

theorem FailsOnly.bind {x : Result α} {f : α → Result β} (hx : FailsOnly allowed x)
    (hf : ∀ a, x = .ok a → FailsOnly allowed (f a)) : FailsOnly allowed (x >>= f) := by
  cases x with
  | error e => exact failsOnly_error (hx e rfl)
  | ok a => exact hf a rfl

theorem FailsOnly.map {x : Result α} (g : α → β) (hx : FailsOnly allowed x) :
    FailsOnly allowed (x.map g) := by
  cases x with
  | error e => exact failsOnly_error (hx e rfl)
  | ok a => exact failsOnly_ok (g a)

theorem FailsOnly.bind_pure {x : Result α} (hx : FailsOnly allowed x) (g : α → β) :
    FailsOnly allowed (x >>= fun a => pure (g a)) :=
  hx.bind fun a _ => failsOnly_ok (g a)

/-- Two computations, and a result made of theirs. -/
theorem FailsOnly.bind_both {x : Result α} {y : Result β} (hx : FailsOnly allowed x)
    (hy : FailsOnly allowed y) (g : α → β → γ) :
    FailsOnly allowed (x >>= fun a => y >>= fun b => pure (g a b)) :=
  hx.bind fun a _ => hy.bind_pure (g a)

/-- A test is asked, and one of two computations follows. -/
theorem FailsOnly.bind_ite {x : Result Bool} {y z : Result α} (hx : FailsOnly allowed x)
    (hy : FailsOnly allowed y) (hz : FailsOnly allowed z) :
    FailsOnly allowed (x >>= fun b => if b then y else z) := by
  refine hx.bind fun b _ => ?_
  cases b with
  | true => exact hy
  | false => exact hz

end

namespace Fault

/-- The fault is no report. -/
def IsPlain : Fault → Prop
  | reported _ => False
  | _ => True

end Fault

/-- No fault by which a computation may stop is a report. -/
abbrev FailsPlainly {α : Type} (x : Result α) : Prop :=
  FailsOnly Fault.IsPlain x

theorem FailsOnly.ne_reported {α : Type} {x : Result α} (hx : FailsPlainly x) (r : Report) :
    x ≠ .error (.reported r) :=
  hx (.reported r)

end Listing
