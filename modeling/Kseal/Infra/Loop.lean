/-!
# Loops that may throw

The body of a loop throws, which is no result, goes on with a new state (`inl`) or leaves the loop
(`inr`). A loop stops if some number of iterations is enough.
-/

namespace Kseal.Infra

variable {σ β : Type}

/-- At most `fuel` iterations: nothing if they are not enough, otherwise how the loop ended. -/
def loop (body : σ → Option (σ ⊕ β)) : Nat → σ → Option (Option β)
  | 0, _ => none
  | fuel + 1, s =>
    match body s with
    | none => some none
    | some (.inl s') => loop body fuel s'
    | some (.inr b) => some (some b)

variable {body : σ → Option (σ ⊕ β)}

/-- **A measure that each iteration lowers stops the loop.** -/
theorem loop_stops (measure : σ → Nat)
    (hbody : ∀ s s', body s = some (.inl s') → measure s' < measure s) (s : σ) :
    ∃ fuel, (loop body fuel s).isSome := by
  induction hm : measure s using Nat.strongRecOn generalizing s with
  | _ m ih =>
    cases hs : body s with
    | none => exact ⟨1, by simp [loop, hs]⟩
    | some r =>
      cases r with
      | inl s' =>
        obtain ⟨fuel, hfuel⟩ := ih _ (hm ▸ hbody s s' hs) s' rfl
        exact ⟨fuel + 1, by simpa [loop, hs] using hfuel⟩
      | inr b => exact ⟨1, by simp [loop, hs]⟩

/-- **States that each iteration keeps keep the loop running.** -/
theorem loop_runs {P : σ → Prop} (hbody : ∀ s, P s → ∃ s', body s = some (.inl s') ∧ P s')
    (fuel : Nat) {s : σ} (hs : P s) : loop body fuel s = none := by
  induction fuel generalizing s with
  | zero => rfl
  | succ fuel ih =>
    obtain ⟨s', hnext, hs'⟩ := hbody s hs
    rw [loop, hnext]
    exact ih hs'

end Kseal.Infra
