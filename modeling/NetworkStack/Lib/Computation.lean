import Mathlib.Tactic.TypeStar

/-!
# Computations that end with an error

The bind of `Except`, step by step, and what is left of it where only the result counts; the
bind of `Option` at a step that has a value.
-/

namespace NetworkStack.Computation

variable {ε : Type*} {α β : Type} {e : Except ε α} {f : α → Except ε β}

theorem ok_bind (a : α) (f : α → Except ε β) : (Except.ok a >>= f) = f a := rfl

/-- A computation that returns went on from a result of its first part. -/
theorem ok_of_bind {b : β} (h : e >>= f = .ok b) : ∃ a, e = .ok a ∧ f a = .ok b := by
  cases e with
  | error fault => cases h
  | ok a => exact ⟨a, rfl, h⟩

@[simp] theorem toOption_pure (a : α) : (pure a : Except ε α).toOption = some a := rfl

/-- The result of a computation, step by step. -/
theorem toOption_bind (e : Except ε α) (f : α → Except ε β) :
    (e >>= f).toOption = e.toOption.bind fun a => (f a).toOption := by
  cases e <;> rfl

/-- A step of a partial computation that has a value. -/
theorem bind_of_some {o : Option α} {a : α} {g : α → Option β} (h : o = some a) :
    o >>= g = g a := by
  rw [h]
  rfl

end NetworkStack.Computation
