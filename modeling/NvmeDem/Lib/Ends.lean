import Mathlib.Tactic.Basic

/-!
# How a call ends

A call in `Except` ends well when it ends with an error that is allowed, or with a result that is as it should be. A step and what comes
after it end well exactly if the step ends well and with a result from which the rest does (`well_bind`), so what a call needs is read
off the call.
-/

namespace Ends

variable {ε α β : Type} {allowed : ε → Prop} {post : α → Prop} {post' : β → Prop}

/-- A call ends with an allowed error or with a result that has the property. -/
def Well (allowed : ε → Prop) (post : α → Prop) : Except ε α → Prop
  | .error e => allowed e
  | .ok a => post a

@[simp] theorem well_error (e : ε) : Well allowed post (.error e) ↔ allowed e := Iff.rfl

@[simp] theorem well_ok (a : α) : Well allowed post (.ok a) ↔ post a := Iff.rfl

theorem well_congr {post₁ post₂ : α → Prop} (h : ∀ a, post₁ a ↔ post₂ a) (x : Except ε α) :
    Well allowed post₁ x ↔ Well allowed post₂ x := by
  rw [funext fun a => propext (h a)]

theorem well_bind (x : Except ε α) (f : α → Except ε β) :
    Well allowed post' (x >>= f) ↔ Well allowed (fun a => Well allowed post' (f a)) x := by
  cases x with
  | error e => exact Iff.rfl
  | ok a => exact Iff.rfl

theorem well_map (x : Except ε α) (f : α → β) : Well allowed post' (x.map f) ↔ Well allowed (fun a => post' (f a)) x := by
  cases x with
  | error e => exact Iff.rfl
  | ok a => exact Iff.rfl

end Ends
