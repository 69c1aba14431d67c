import Listing.Log.Redaction

/-!
# What redaction keeps

Two values resemble each other if they differ at most in what stands under sensitive keys. They are
redacted to the same value if and only if they do (`Redaction.redact_eq_iff`), and a value resembles
what it is redacted to (`Redaction.resembles_redact`).
-/

set_option autoImplicit false

namespace Listing.Redaction

variable {r : Redaction}

mutual

/-- The values differ at most in what stands under sensitive keys: they are equal, or collections of
one sort and length with such items; maps have the same keys in the same order. -/
inductive Resembles (r : Redaction) : Value → Value → Prop
  | same (v : Value) : Resembles r v v
  | list {vs ws : List Value} (h : ResembleAll r vs ws) : Resembles r (.list vs) (.list ws)
  | tuple {vs ws : List Value} (h : ResembleAll r vs ws) : Resembles r (.tuple vs) (.tuple ws)
  | map {es fs : List (Value × Value)} (h : ResembleEntries r es fs) :
    Resembles r (.map es) (.map fs)

/-- The lists have one length, and their values resemble each other in order. -/
inductive ResembleAll (r : Redaction) : List Value → List Value → Prop
  | nil : ResembleAll r [] []
  | cons {v w : Value} {vs ws : List Value} (h : Resembles r v w) (more : ResembleAll r vs ws) :
    ResembleAll r (v :: vs) (w :: ws)

/-- The entries have the same keys in order, and resembling values under those not sensitive. -/
inductive ResembleEntries (r : Redaction) : List (Value × Value) → List (Value × Value) → Prop
  | nil : ResembleEntries r [] []
  | hidden {k v w : Value} {es fs : List (Value × Value)} (hk : r.isSensitiveKey k = true)
      (more : ResembleEntries r es fs) : ResembleEntries r ((k, v) :: es) ((k, w) :: fs)
  | shown {k v w : Value} {es fs : List (Value × Value)} (h : Resembles r v w)
      (more : ResembleEntries r es fs) : ResembleEntries r ((k, v) :: es) ((k, w) :: fs)

end

/-! ## Resemblance -/

mutual

theorem Resembles.symm {v w : Value} : Resembles r v w → Resembles r w v
  | .same v => .same v
  | .list h => .list h.symm
  | .tuple h => .tuple h.symm
  | .map h => .map h.symm

theorem ResembleAll.symm {vs ws : List Value} : ResembleAll r vs ws → ResembleAll r ws vs
  | .nil => .nil
  | .cons h more => .cons h.symm more.symm

theorem ResembleEntries.symm {es fs : List (Value × Value)} :
    ResembleEntries r es fs → ResembleEntries r fs es
  | .nil => .nil
  | .hidden hk more => .hidden hk more.symm
  | .shown h more => .shown h.symm more.symm

end

mutual

theorem Resembles.trans {u v w : Value} : Resembles r u v → Resembles r v w → Resembles r u w
  | .same _, h => h
  | h, .same _ => h
  | .list h, .list h' => .list (h.trans h')
  | .tuple h, .tuple h' => .tuple (h.trans h')
  | .map h, .map h' => .map (h.trans h')

theorem ResembleAll.trans {us vs ws : List Value} :
    ResembleAll r us vs → ResembleAll r vs ws → ResembleAll r us ws
  | .nil, .nil => .nil
  | .cons h more, .cons h' more' => .cons (h.trans h') (more.trans more')

-- a key that is sensitive in one comparison is so in both, being the same key
theorem ResembleEntries.trans {ds es fs : List (Value × Value)} :
    ResembleEntries r ds es → ResembleEntries r es fs → ResembleEntries r ds fs
  | .nil, .nil => .nil
  | .hidden hk more, .hidden _ more' => .hidden hk (more.trans more')
  | .hidden hk more, .shown _ more' => .hidden hk (more.trans more')
  | .shown _ more, .hidden hk more' => .hidden hk (more.trans more')
  | .shown h more, .shown h' more' => .shown (h.trans h') (more.trans more')

end

/-! ## Redaction -/

mutual

theorem redact_eq_of_resembles {v w : Value} : Resembles r v w → r.redact v = r.redact w
  | .same v => rfl
  | .list h => by rw [redact, redact, redactAll_eq_of_resemble h]
  | .tuple h => by rw [redact, redact, redactAll_eq_of_resemble h]
  | .map h => by rw [redact, redact, redactEntries_eq_of_resemble h]

theorem redactAll_eq_of_resemble {vs ws : List Value} :
    ResembleAll r vs ws → r.redactAll vs = r.redactAll ws
  | .nil => rfl
  | .cons h more => by
      rw [redactAll, redactAll, redact_eq_of_resembles h, redactAll_eq_of_resemble more]

theorem redactEntries_eq_of_resemble {es fs : List (Value × Value)} :
    ResembleEntries r es fs → r.redactEntries es = r.redactEntries fs
  | .nil => rfl
  | .hidden hk more => by
      rw [redactEntries, redactEntries, if_pos hk, if_pos hk, redactEntries_eq_of_resemble more]
  | .shown h more => by
      rw [redactEntries, redactEntries, redact_eq_of_resembles h, redactEntries_eq_of_resemble more]

end

mutual

theorem resembles_redact (r : Redaction) : ∀ v : Value, Resembles r v (r.redact v)
  | .list vs => by
      rw [redact]
      exact .list (resembleAll_redactAll r vs)
  | .tuple vs => by
      rw [redact]
      exact .tuple (resembleAll_redactAll r vs)
  | .map es => by
      rw [redact]
      exact .map (resembleEntries_redactEntries r es)
  | .null | .bool _ | .int _ | .float _ | .decimal _ | .text _ | .instant _ | .day _ | .uuid _
  | .member _ | .object _ => .same _

theorem resembleAll_redactAll (r : Redaction) (vs : List Value) :
    ResembleAll r vs (r.redactAll vs) := by
  cases vs with
  | nil => exact .nil
  | cons v vs => exact .cons (resembles_redact r v) (resembleAll_redactAll r vs)

theorem resembleEntries_redactEntries (r : Redaction) : ∀ es : List (Value × Value),
    ResembleEntries r es (r.redactEntries es)
  | [] => .nil
  | (k, v) :: es => by
      have hrest := resembleEntries_redactEntries r es
      rw [redactEntries]
      by_cases hk : r.isSensitiveKey k = true
      · rw [if_pos hk]
        exact .hidden hk hrest
      · rw [if_neg hk]
        exact .shown (resembles_redact r v) hrest

end

/-- What stands under a sensitive key goes as a whole; a key that is no text is not sensitive. -/
example : (make none none).redact (.tuple [.map [(.text "Signing_Secret", .list [.text "x"]),
      (.bool true, .list [.map [(.text "token", .int 7), (.text "tokens", .int 8)]])]]) =
    .tuple [.map [(.text "Signing_Secret", .text mask),
      (.bool true, .list [.map [(.text "token", .text mask), (.text "tokens", .int 8)]])]] := by
  rfl

end Listing.Redaction
