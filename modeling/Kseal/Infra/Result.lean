/-!
# Computations that may fail

Inversion lemmas for `do` blocks over `Except`: from a block that succeeded, each of its steps
succeeded. Proofs take a block apart with `obtain`, step by step, and never unfold it. Guards are
taken apart the same way.
-/

namespace Kseal.Infra

variable {ε α β : Type}

variable {x : Except ε α}

theorem bind_eq_ok {f : α → Except ε β} {r : β} (h : (x >>= f) = .ok r) :
    ∃ a, x = .ok a ∧ f a = .ok r := by
  cases x with
  | error e => exact absurd h (by simp [bind, Except.bind])
  | ok a => exact ⟨a, rfl, h⟩

variable {a : α}

theorem eq_ok_of_mapError {ε' : Type} {f : ε → ε'} (h : x.mapError f = .ok a) : x = .ok a := by
  cases x with
  | error e => cases h
  | ok b => cases h; rfl

theorem eq_ok_of_toOption (h : x.toOption = some a) : x = .ok a := by
  cases x with
  | error e => cases h
  | ok b => cases h; rfl

theorem ok_bind (a : α) (f : α → Except ε β) : ((Except.ok a : Except ε α) >>= f) = f a := rfl

variable {c : Prop} [Decidable c]

theorem ite_false_eq_true {b : Bool} : (if c then false else b) = true ↔ ¬ c ∧ b = true := by
  by_cases hc : c <;> simp [hc]

theorem guard_ok {e : ε} (h : (if c then .error e else x) = .ok a) : ¬ c ∧ x = .ok a := by
  split at h
  · cases h
  · exact ⟨‹_›, h⟩

theorem guard_some {x : Option α} (h : (if c then x else none) = some a) : c ∧ x = some a :=
  Option.ite_none_right_eq_some.mp h

theorem unless_some {x : Option α} (h : (if c then none else x) = some a) : ¬ c ∧ x = some a :=
  Option.ite_none_left_eq_some.mp h

end Kseal.Infra
