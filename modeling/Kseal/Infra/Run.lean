import Kseal.Infra.Result

/-!
# Runs of a transition system

`step s a` is the state after action `a`, or nothing if that cannot happen. A run lists its steps
with the states around them.
-/

namespace Kseal.Infra

open List

structure Event (σ α : Type) where
  before : σ
  action : α
  after : σ

variable {σ α : Type}

inductive Run (step : σ → α → Option σ) : σ → List (Event σ α) → σ → Prop where
  | nil (s : σ) : Run step s [] s
  | cons {s s' t : σ} {a : α} {es : List (Event σ α)} (h : step s a = some s')
      (hrun : Run step s' es t) : Run step s (⟨s, a, s'⟩ :: es) t

def exec (step : σ → α → Option σ) (check : σ → α → Bool) : σ → List α → Option σ
  | s, [] => some s
  | s, a :: as =>
    if check s a then
      match step s a with
      | none => none
      | some s' => exec step check s' as
    else none

def execAt (step : σ → α → Option σ) (s : σ) (before : List α) (a : α) (after : List α) :
    Option (σ × σ) := do
  let s₁ ← exec step (fun _ _ => true) s before
  let s₂ ← step s₁ a
  let t ← exec step (fun _ _ => true) s₂ after
  return (s₁, t)

variable {step : σ → α → Option σ} {s t : σ} {es : List (Event σ α)}

theorem Run.append {u : σ} {es' : List (Event σ α)} (h : Run step s es t) (h' : Run step t es' u) :
    Run step s (es ++ es') u := by
  induction h with
  | nil s => exact h'
  | cons hs _ ih => exact .cons hs (ih h')

theorem Run.split {e : Event σ α} (hrun : Run step s es t) (he : e ∈ es) :
    ∃ es₁ es₂, Run step s es₁ e.before ∧ step e.before e.action = some e.after ∧
      Run step e.after es₂ t := by
  induction hrun with
  | nil s => cases he
  | @cons s s' t a es h hrun ih =>
    rcases mem_cons.mp he with rfl | he
    · exact ⟨[], es, .nil s, h, hrun⟩
    · obtain ⟨es₁, es₂, hbefore, he, hafter⟩ := ih he
      exact ⟨⟨s, a, s'⟩ :: es₁, es₂, .cons h hbefore, he, hafter⟩

variable {Inv : σ → Prop} {C : σ → α → Prop}

/-- **What every step keeps holds along the whole run.** -/
theorem Run.keeps (hstep : ∀ {s a s'}, Inv s → C s a → step s a = some s' → Inv s')
    (hrun : Run step s es t) (h0 : Inv s) (hc : ∀ e ∈ es, C e.before e.action) :
    Inv t ∧ ∀ e ∈ es, Inv e.after := by
  induction hrun with
  | nil s => exact ⟨h0, by simp⟩
  | cons h _ ih =>
    rw [forall_mem_cons] at hc ⊢
    have h' := hstep h0 hc.1 h
    obtain ⟨ht, hes⟩ := ih h' hc.2
    exact ⟨ht, h', hes⟩

theorem Run.keeps_before (hstep : ∀ {s a s'}, Inv s → C s a → step s a = some s' → Inv s')
    (hrun : Run step s es t) (h0 : Inv s) (hc : ∀ e ∈ es, C e.before e.action) :
    ∀ e ∈ es, Inv e.before ∧ step e.before e.action = some e.after := by
  induction hrun with
  | nil s => simp
  | cons h _ ih =>
    rw [forall_mem_cons] at hc ⊢
    exact ⟨⟨h0, h⟩, ih (hstep h0 hc.1 h) hc.2⟩

theorem Run.related {R : σ → σ → Prop} (hrefl : ∀ s, R s s)
    (htrans : ∀ {s s' s''}, R s s' → R s' s'' → R s s'')
    (hstep : ∀ {s a s'}, step s a = some s' → R s s') (hrun : Run step s es t) : R s t := by
  induction hrun with
  | nil s => exact hrefl s
  | cons h _ ih => exact htrans (hstep h) ih

theorem Run.grows {β : Type} {f : σ → List β}
    (hstep : ∀ {s a s'}, step s a = some s' → f s <+: f s') (hrun : Run step s es t) :
    f s <+: f t ∧ ∀ e ∈ es, f e.before <+: f t := by
  induction hrun with
  | nil s => exact ⟨prefix_rfl, by simp⟩
  | cons h _ ih =>
    have hst := (hstep h).trans ih.1
    exact ⟨hst, forall_mem_cons.mpr ⟨hst, ih.2⟩⟩

/--
**A property of all states as a condition on all steps.**

`Inv` is what every step keeps; under it, one step from a state with `P` leads to a state
with `P` exactly when it meets `C`.
-/
theorem Run.always_iff {P : σ → Prop} (hinv : ∀ {s a s'}, Inv s → step s a = some s' → Inv s')
    (hstep : ∀ {s a s'}, Inv s → P s → step s a = some s' → (P s' ↔ C s a)) (hrun : Run step s es t)
    (h0 : Inv s) (hp : P s) :
    (∀ e ∈ es, P e.after) ↔ ∀ e ∈ es, C e.before e.action := by
  induction hrun with
  | nil s => simp
  | cons h _ ih =>
    rw [forall_mem_cons, forall_mem_cons, hstep h0 hp h]
    constructor
    · rintro ⟨hc, hes⟩
      exact ⟨hc, (ih (hinv h0 h) ((hstep h0 hp h).mpr hc)).mp hes⟩
    · rintro ⟨hc, hes⟩
      exact ⟨hc, (ih (hinv h0 h) ((hstep h0 hp h).mpr hc)).mpr hes⟩

theorem run_of_exec (step : σ → α → Option σ) (check : σ → α → Bool) :
    ∀ (s : σ) (as : List α) {t : σ}, exec step check s as = some t →
      ∃ es, Run step s es t ∧ (∀ e ∈ es, check e.before e.action = true) ∧
        es.map Event.action = as
  | s, [], t, h => by
    cases h
    exact ⟨[], Run.nil s, by simp, rfl⟩
  | s, a :: as, t, h => by
    obtain ⟨hc, h⟩ := guard_some h
    split at h
    · cases h
    · next s' hs =>
      obtain ⟨es, hrun, hes, rfl⟩ := run_of_exec step check s' as h
      exact ⟨⟨s, a, s'⟩ :: es, Run.cons hs hrun, forall_mem_cons.mpr ⟨hc, hes⟩, rfl⟩

/-- **A run is given by its actions**, if they can be taken. -/
theorem exists_run {as : List α} {P : σ → Prop} [DecidablePred P]
    (h : (exec step (fun _ _ => true) s as).map (fun t => decide (P t)) = some true) :
    ∃ es t, Run step s es t ∧ es.map Event.action = as ∧ P t := by
  obtain ⟨t, ht, hp⟩ := Option.map_eq_some_iff.mp h
  obtain ⟨es, hrun, -, hes⟩ := run_of_exec _ _ _ _ ht
  exact ⟨es, t, hrun, hes, of_decide_eq_true hp⟩

theorem exists_run_at (step : σ → α → Option σ) (s : σ) (before : List α) (a : α) (after : List α)
    (P : σ → σ → Prop) [DecidableRel P]
    (h : (execAt step s before a after).map (fun r => decide (P r.1 r.2)) = some true) :
    ∃ es t e, Run step s es t ∧ e ∈ es ∧ e.action = a ∧ P e.before t := by
  obtain ⟨⟨s₁, t⟩, h, hp⟩ := Option.map_eq_some_iff.mp h
  obtain ⟨s₁', hbefore, h⟩ := Option.bind_eq_some_iff.mp h
  obtain ⟨s₂, ha, h⟩ := Option.bind_eq_some_iff.mp h
  obtain ⟨t', hafter, h⟩ := Option.bind_eq_some_iff.mp h
  cases h
  obtain ⟨es₁, hrun₁, -, -⟩ := run_of_exec _ _ _ _ hbefore
  obtain ⟨es₂, hrun₂, -, -⟩ := run_of_exec _ _ _ _ hafter
  exact ⟨es₁ ++ ⟨s₁, a, s₂⟩ :: es₂, t, ⟨s₁, a, s₂⟩, hrun₁.append (.cons ha hrun₂),
    mem_append_right _ mem_cons_self, rfl, of_decide_eq_true hp⟩

end Kseal.Infra
