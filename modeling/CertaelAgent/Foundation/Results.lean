import Mathlib.Tactic

/-!
# Sequencing of fallible computations

How a bind, a mapped error and a conditional failure of `Except` succeed or fail, stated as
equivalences so that a chain of checks can be opened one link at a time.
-/

namespace Except

universe u v
variable {ε ε' : Type u} {α β : Type v}

theorem bind_eq_ok_iff {x : Except ε α} {f : α → Except ε β} {b : β} :
    (x >>= f) = .ok b ↔ ∃ a, x = .ok a ∧ f a = .ok b := by
  cases x with
  | error e => simp [Bind.bind, Except.bind]
  | ok a => simp [Bind.bind, Except.bind]

@[simp] theorem ok_bind (a : α) (f : α → Except ε β) : (Except.ok a >>= f) = f a := rfl

@[simp] theorem error_bind (e : ε) (f : α → Except ε β) :
    ((Except.error e : Except ε α) >>= f) = .error e := rfl

theorem map_eq_ok_iff {f : α → β} {x : Except ε α} {b : β} :
    x.map f = .ok b ↔ ∃ a, x = .ok a ∧ f a = b := by
  cases x <;> simp [Except.map]

theorem mapError_eq_ok_iff {f : ε → ε'} {x : Except ε α} {a : α} :
    x.mapError f = .ok a ↔ x = .ok a := by
  cases x <;> simp [Except.mapError]

/-- The value of an option, or the given error. -/
def ofOption (e : ε) : Option α → Except ε α
  | some a => .ok a
  | none => .error e

theorem ofOption_eq_ok_iff {e : ε} {x : Option α} {a : α} : ofOption e x = .ok a ↔ x = some a := by
  cases x <;> simp [ofOption]

/-- Succeeds exactly when the check holds. -/
def require (e : ε) (p : Prop) [Decidable p] : Except ε Unit :=
  if p then .ok () else .error e

theorem require_eq_ok_iff {e : ε} {p : Prop} [Decidable p] {u : Unit} :
    require e p = .ok u ↔ p := by
  unfold require
  split_ifs with h <;> simp [h]

end Except
