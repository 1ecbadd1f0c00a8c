import Mathlib.Data.List.Basic

namespace Library.FaultRun

variable {ε σ α β : Type}

@[simp] theorem ok_bind (a : α) (f : α → Except ε β) : Except.ok a >>= f = f a := rfl

@[simp] theorem error_bind (e : ε) (f : α → Except ε β) : Except.error e >>= f = .error e := rfl

theorem bind_eq_ok {x : Except ε α} {f : α → Except ε β} {b : β} :
    x >>= f = .ok b ↔ ∃ a, x = .ok a ∧ f a = .ok b := by
  cases x <;> simp [bind, Except.bind]

theorem bind_eq_error {x : Except ε α} {f : α → Except ε β} {e : ε} :
    x >>= f = .error e ↔ x = .error e ∨ ∃ a, x = .ok a ∧ f a = .error e := by
  cases x <;> simp [bind, Except.bind]

theorem map_eq_ok {x : Except ε α} {f : α → β} {b : β} :
    x.map f = .ok b ↔ ∃ a, x = .ok a ∧ f a = b := by
  cases x <;> simp [Except.map]

/-- A computation that ends in `post`, or in a fault that is `tolerated`. -/
def Safe (tolerated : ε → Prop) (post : α → Prop) : Except ε α → Prop
  | .ok a => post a
  | .error e => tolerated e

variable {tolerated : ε → Prop}

theorem Safe.ok {post : α → Prop} {a : α} (holds : post a) : Safe tolerated post (.ok a) := holds

theorem Safe.mono {pre post : α → Prop} {x : Except ε α} (safe : Safe tolerated pre x)
    (weaken : ∀ a, pre a → post a) : Safe tolerated post x := by
  cases x with
  | error e => exact safe
  | ok a => exact weaken a safe

theorem Safe.bind {mid : α → Prop} {post : β → Prop} {x : Except ε α} {f : α → Except ε β}
    (first : Safe tolerated mid x) (rest : ∀ a, mid a → Safe tolerated post (f a)) :
    Safe tolerated post (x >>= f) := by
  cases x with
  | error e => exact first
  | ok a => exact rest a first

end Library.FaultRun
