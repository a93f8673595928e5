import Mathlib.Data.List.Forall2

/-!
# Deterministic machines and simulation

A machine goes on, stops with a result or gets stuck; a move may leave an observation. `SameRuns`
says that two machines cannot be told apart. `sameRuns_of_simulation` proves it from a relation
whose states advance to related ones in a positive number of steps each. `Mirrors` is the case in
which the second machine follows every step of the first (`Mirrors.sameOutcome`).
-/

namespace Kseal.Infra

open List

inductive Move (σ τ ρ : Type) where
  | go (out : Option τ) (s : σ)
  | done (out : Option τ) (r : ρ)
  | stuck

variable {σ σ' τ τ' ρ : Type}

inductive Steps (step : σ → Move σ τ ρ) : Nat → σ → List τ → σ → Prop where
  | zero (s : σ) : Steps step 0 s [] s
  | succ {n : Nat} {s s' t : σ} {out : Option τ} {tr : List τ} (h : step s = .go out s')
      (hs : Steps step n s' tr t) : Steps step (n + 1) s (out.toList ++ tr) t

def Ends (step : σ → Move σ τ ρ) (s : σ) (tr : List τ) (r : ρ) : Prop :=
  ∃ n s' tr' out, Steps step n s tr' s' ∧ step s' = .done out r ∧ tr = tr' ++ out.toList

def Observes (step : σ → Move σ τ ρ) (s : σ) (tr : List τ) : Prop :=
  (∃ n s', Steps step n s tr s') ∨ ∃ r, Ends step s tr r

def Diverges (step : σ → Move σ τ ρ) (s : σ) : Prop := ∀ n, ∃ tr s', Steps step n s tr s'

def NeverStuck (step : σ → Move σ τ ρ) (s : σ) : Prop :=
  ∀ n tr s', Steps step n s tr s' → step s' ≠ .stuck

structure Follows (step : σ → Move σ τ ρ) (step' : σ' → Move σ' τ' ρ) (M : τ → τ' → Prop)
    (s : σ) (t : σ') : Prop where
  ends : ∀ tr r, Ends step s tr r → ∃ tr', List.Forall₂ M tr tr' ∧ Ends step' t tr' r
  observes : ∀ tr, Observes step s tr → ∃ tr', List.Forall₂ M tr tr' ∧ Observes step' t tr'
  diverges : Diverges step s → Diverges step' t
  never_stuck : NeverStuck step s

structure SameRuns (step : σ → Move σ τ ρ) (step' : σ' → Move σ' τ' ρ) (M : τ → τ' → Prop)
    (s : σ) (t : σ') : Prop where
  forward : Follows step step' M s t
  backward : Follows step' step (fun x y => M y x) t s

/-! ## Runs of one machine -/

variable {r : ρ} {x : τ}

section runs

variable {step : σ → Move σ τ ρ} {m n : Nat} {s s' t u : σ} {tr tr' : List τ}

theorem Steps.one {out : Option τ} (h : step s = .go out s') :
    Steps step 1 s out.toList s' := by
  have := Steps.succ h (Steps.zero s')
  rwa [append_nil] at this

theorem Steps.one_silent (h : step s = .go none s') : Steps step 1 s [] s' := Steps.one h

theorem Steps.silent (h : step s = .go none s') (hs : Steps step n s' tr t) :
    Steps step (n + 1) s tr t := Steps.succ h hs

theorem Steps.trans (h : Steps step m s tr t) (h' : Steps step n t tr' u) :
    Steps step (m + n) s (tr ++ tr') u := by
  induction h with
  | zero s => rw [Nat.zero_add]; exact h'
  | succ hs _ ih =>
    rw [Nat.succ_add, append_assoc]
    exact Steps.succ hs (ih h')

theorem Steps.split (h : Steps step n s tr t) (hmn : m ≤ n) :
    ∃ tr₁ tr₂ u, Steps step m s tr₁ u ∧ Steps step (n - m) u tr₂ t ∧ tr = tr₁ ++ tr₂ := by
  induction h generalizing m with
  | zero s =>
    obtain rfl : m = 0 := by omega
    exact ⟨[], [], s, .zero s, .zero s, rfl⟩
  | @succ n s s' t out tr hs hrest ih =>
    cases m with
    | zero => exact ⟨[], _, s, .zero s, .succ hs hrest, rfl⟩
    | succ m =>
      obtain ⟨tr₁, tr₂, u, h₁, h₂, rfl⟩ := ih (Nat.le_of_succ_le_succ hmn)
      exact ⟨out.toList ++ tr₁, tr₂, u, .succ hs h₁, by rw [Nat.add_sub_add_right]; exact h₂,
        (append_assoc ..).symm⟩

theorem Steps.det (h : Steps step n s tr t) (h' : Steps step n s tr' u) : tr = tr' ∧ t = u := by
  induction h generalizing tr' with
  | zero s => cases h'; exact ⟨rfl, rfl⟩
  | succ hs _ ih =>
    cases h' with
    | succ hs' hrest' =>
      rw [hs] at hs'
      cases hs'
      obtain ⟨rfl, rfl⟩ := ih hrest'
      exact ⟨rfl, rfl⟩

theorem Steps.le_of_not_go (h : Steps step m s tr t) (ht : ∀ out u, step t ≠ .go out u)
    (h' : Steps step n s tr' u) : n ≤ m := by
  rcases Nat.lt_or_ge m n with hlt | hge
  · obtain ⟨_, _, v, hv, hrest, -⟩ := h'.split (Nat.le_of_lt hlt)
    obtain ⟨-, rfl⟩ := h.det hv
    obtain ⟨k, hk⟩ : ∃ k, n - m = k + 1 := ⟨n - m - 1, by omega⟩
    rw [hk] at hrest
    cases hrest with
    | succ hs _ => exact absurd hs (ht _ _)
  · exact hge

theorem Steps.take (h : Steps step n s tr t) (k : Nat) :
    ∃ m u, Steps step m s (tr.take k) u := by
  induction h generalizing k with
  | zero s => exact ⟨0, s, by simpa using Steps.zero s⟩
  | @succ n s s' t out tr hs _ ih =>
    cases out with
    | none =>
      obtain ⟨m, u, hu⟩ := ih k
      exact ⟨m + 1, u, .succ hs hu⟩
    | some x =>
      cases k with
      | zero => exact ⟨0, s, .zero s⟩
      | succ k =>
        obtain ⟨m, u, hu⟩ := ih k
        exact ⟨m + 1, u, .succ hs hu⟩

theorem Ends.det {r' : ρ} (h : Ends step s tr r) (h' : Ends step s tr' r') :
    tr = tr' ∧ r = r' := by
  obtain ⟨n, u, tr₁, out, hn, hu, rfl⟩ := h
  obtain ⟨n', u', tr₁', out', hn', hu', rfl⟩ := h'
  have hle := hn.le_of_not_go (by simp [hu]) hn'
  have hge := hn'.le_of_not_go (by simp [hu']) hn
  obtain rfl : n = n' := by omega
  obtain ⟨rfl, rfl⟩ := hn.det hn'
  rw [hu] at hu'
  cases hu'
  exact ⟨rfl, rfl⟩

theorem Ends.of_steps (h : Steps step n s tr t) (h' : Ends step t tr' r) :
    Ends step s (tr ++ tr') r := by
  obtain ⟨m, u, tr₁, out, hm, hu, rfl⟩ := h'
  exact ⟨n + m, u, tr ++ tr₁, out, h.trans hm, hu, (append_assoc ..).symm⟩

theorem Ends.observes_take (h : Ends step s tr r) (k : Nat) :
    Observes step s (tr.take k) := by
  obtain ⟨n, u, tr₁, out, hn, hu, rfl⟩ := h
  by_cases hk : k ≤ tr₁.length
  · rw [take_append_of_le_length hk]
    exact .inl (hn.take k)
  · have hall : (tr₁ ++ out.toList).length ≤ k := by
      have := out.length_toList_le
      rw [length_append]; omega
    rw [take_of_length_le hall]
    exact .inr ⟨r, n, u, tr₁, out, hn, hu, rfl⟩

theorem diverges_of_not_ends (hstuck : NeverStuck step s) (hend : ∀ tr r, ¬ Ends step s tr r) :
    Diverges step s := by
  intro n
  induction n with
  | zero => exact ⟨[], s, .zero s⟩
  | succ n ih =>
    obtain ⟨tr, t, h⟩ := ih
    cases ht : step t with
    | go out u => exact ⟨_, u, h.trans (Steps.one ht)⟩
    | done out r => exact absurd ⟨n, t, tr, out, h, ht, rfl⟩ (hend _ r)
    | stuck => exact absurd ht (hstuck n tr t h)

/-! ### Silent runs -/

def Reaches (step : σ → Move σ τ ρ) (s t : σ) : Prop := ∃ n, Steps step n s [] t

theorem Reaches.refl (s : σ) : Reaches step s s := ⟨0, .zero s⟩

theorem Reaches.head (h : step s = .go none s') (hs : Reaches step s' t) : Reaches step s t := by
  obtain ⟨n, hn⟩ := hs
  exact ⟨n + 1, hn.silent h⟩

theorem Reaches.trans (h : Reaches step s t) (h' : Reaches step t u) : Reaches step s u := by
  obtain ⟨m, hm⟩ := h
  obtain ⟨n, hn⟩ := h'
  exact ⟨m + n, hm.trans hn⟩

theorem Reaches.ends (h : Reaches step s t) (hdone : step t = .done none r) :
    Ends step s [] r := by
  obtain ⟨n, hn⟩ := h
  exact ⟨n, t, [], none, hn, hdone, rfl⟩

/-! ### The first observation -/

def Emits (step : σ → Move σ τ ρ) (s : σ) (x : τ) : Prop :=
  (∃ s', step s = .go (some x) s') ∨ ∃ r, step s = .done (some x) r

theorem Emits.not_silent (h : Emits step s x) : step s ≠ .go none s' := by
  rcases h with ⟨u, h⟩ | ⟨r, h⟩ <;> rw [h] <;> simp

theorem Emits.observes (hs : Steps step n s [] t) (h : Emits step t x) :
    Observes step s [x] := by
  rcases h with ⟨u, h⟩ | ⟨r, h⟩
  · exact .inl ⟨n + 1, u, hs.trans (Steps.one h)⟩
  · exact .inr ⟨r, n, t, [], some x, hs, h, rfl⟩

theorem Steps.first (h : Steps step n s tr t) (htr : tr = x :: tr') :
    ∃ m u, Steps step m s [] u ∧ Emits step u x := by
  induction h with
  | zero s => cases htr
  | @succ n s s' t out tr hs _ ih =>
    cases out with
    | none =>
      obtain ⟨m, u, hu, hx⟩ := ih htr
      exact ⟨m + 1, u, hu.silent hs, hx⟩
    | some y =>
      cases htr
      exact ⟨0, s, .zero s, .inl ⟨s', hs⟩⟩

theorem Observes.first (h : Observes step s (x :: tr)) :
    ∃ m u, Steps step m s [] u ∧ Emits step u x := by
  rcases h with ⟨n, t, h⟩ | ⟨r, n, t, tr₁, out, h, hdone, htr⟩
  · exact h.first rfl
  · cases tr₁ with
    | nil =>
      cases out with
      | none => cases htr
      | some y =>
        cases htr
        exact ⟨n, t, h, .inr ⟨r, hdone⟩⟩
    | cons y tr₁ =>
      cases htr
      exact h.first rfl

theorem Steps.le_of_emits {x : τ} (h : Steps step m s [] u) (hx : Emits step u x)
    (h' : Steps step n s [] t) : n ≤ m := by
  rcases Nat.lt_or_ge m n with hlt | hge
  · obtain ⟨_, tr₂, v, hv, hrest, htr⟩ := h'.split (Nat.le_of_lt hlt)
    obtain ⟨-, rfl⟩ := h.det hv
    obtain rfl : tr₂ = [] := (append_eq_nil_iff.mp htr.symm).2
    obtain ⟨k, hk⟩ : ∃ k, n - m = k + 1 := ⟨n - m - 1, by omega⟩
    rw [hk] at hrest
    generalize hnil : ([] : List τ) = tr₃ at hrest
    cases hrest with
    | @succ _ _ _ _ out _ hs _ =>
      cases out with
      | none => exact absurd hs hx.not_silent
      | some y => cases hnil
  · exact hge

theorem Observes.first_after (h : Observes step s (x :: tr)) (hs : Steps step n s [] t) :
    ∃ m u, Steps step m t [] u ∧ Emits step u x := by
  obtain ⟨m, u, hu, hx⟩ := h.first
  obtain ⟨_, tr₂, v, hv, hrest, htr⟩ := hu.split (hu.le_of_emits hx hs)
  obtain ⟨-, rfl⟩ := hs.det hv
  obtain rfl : tr₂ = [] := (append_eq_nil_iff.mp htr.symm).2
  exact ⟨_, u, hrest, hx⟩

theorem Emits.unique {y : τ} (hs : Steps step m s [] u) (hx : Emits step u x)
    (ht : Steps step n s [] t) (hy : Emits step t y) : x = y := by
  obtain rfl : m = n := Nat.le_antisymm (ht.le_of_emits hy hs) (hs.le_of_emits hx ht)
  obtain ⟨-, rfl⟩ := hs.det ht
  rcases hx with ⟨s₁, hx⟩ | ⟨r₁, hx⟩ <;> rcases hy with ⟨s₂, hy⟩ | ⟨r₂, hy⟩ <;>
    rw [hx] at hy <;> cases hy <;> rfl

end runs

/-! ## Simulation -/

section simulation

variable {step : σ → Move σ τ ρ} {step' : σ' → Move σ' τ' ρ} {M : τ → τ' → Prop} {m n : Nat}

/--
From `s` and `t` the machines advance to states related by `R`, the first in at least `a` steps
and the second in at least `b`, or they stop alike.
-/
def Advance (step : σ → Move σ τ ρ) (step' : σ' → Move σ' τ' ρ) (M : τ → τ' → Prop) (a b : Nat)
    (R : σ → σ' → Prop) (s : σ) (t : σ') : Prop :=
  (∃ m n tr tr' s' t', a ≤ m ∧ b ≤ n ∧ Steps step m s tr s' ∧ Steps step' n t tr' t' ∧
    List.Forall₂ M tr tr' ∧ R s' t') ∨
  ∃ tr tr' r, Ends step s tr r ∧ Ends step' t tr' r ∧ List.Forall₂ M tr tr'

section advance

variable {a b a' b' : Nat} {R R' : σ → σ' → Prop} {s s' : σ} {t t' : σ'}

theorem Advance.here (h : R s t) : Advance step step' M 0 0 R s t :=
  .inl ⟨0, 0, [], [], s, t, Nat.le_refl _, Nat.le_refl _, .zero s, .zero t, .nil, h⟩

theorem Advance.bind (h : Advance step step' M a b R s t)
    (hR : ∀ s' t', R s' t' → Advance step step' M a' b' R' s' t') :
    Advance step step' M (a + a') (b + b') R' s t := by
  rcases h with ⟨m, n, tr, tr', s', t', ha, hb, hs, ht, hm, hr⟩ | hend
  · rcases hR s' t' hr with ⟨m', n', tr₂, tr₂', s₂, t₂, ha', hb', hs₂, ht₂, hm₂, hr₂⟩ |
      ⟨tr₂, tr₂', r, hs₂, ht₂, hm₂⟩
    · exact .inl ⟨m + m', n + n', tr ++ tr₂, tr' ++ tr₂', s₂, t₂, by omega, by omega,
        hs.trans hs₂, ht.trans ht₂, rel_append hm hm₂, hr₂⟩
    · exact .inr ⟨tr ++ tr₂, tr' ++ tr₂', r, hs₂.of_steps hs, ht₂.of_steps ht,
        rel_append hm hm₂⟩
  · exact .inr hend

theorem Advance.weaken (h : Advance step step' M a b R s t) (ha : a' ≤ a) (hb : b' ≤ b)
    (hR : ∀ s' t', R s' t' → R' s' t') : Advance step step' M a' b' R' s t := by
  rcases h with ⟨m, n, tr, tr', s', t', hm, hn, hs, ht, hM, hr⟩ | hend
  · exact .inl ⟨m, n, tr, tr', s', t', by omega, by omega, hs, ht, hM, hR _ _ hr⟩
  · exact .inr hend

theorem Advance.left (hs : Steps step m s [] s') (h : Advance step step' M a b R s' t) :
    Advance step step' M (m + a) b R s t := by
  have hone : Advance step step' M m 0 (fun x y => x = s' ∧ y = t) s t :=
    .inl ⟨m, 0, [], [], s', t, Nat.le_refl _, Nat.le_refl _, hs, .zero t, .nil, rfl, rfl⟩
  have hall : Advance step step' M (m + a) (0 + b) R s t :=
    hone.bind (by rintro _ _ ⟨rfl, rfl⟩; exact h)
  rwa [Nat.zero_add] at hall

theorem Advance.symm (h : Advance step step' M a b R s t) :
    Advance step' step (fun x y => M y x) b a (fun x y => R y x) t s := by
  rcases h with ⟨m, n, tr, tr', s', t', ha, hb, hs, ht, hm, hr⟩ | ⟨tr, tr', r, hs, ht, hm⟩
  · exact .inl ⟨n, m, tr', tr, t', s', hb, ha, ht, hs, hm.flip, hr⟩
  · exact .inr ⟨tr', tr, r, ht, hs, hm.flip⟩

theorem Advance.right (ht : Steps step' n t [] t') (h : Advance step step' M a b R s t') :
    Advance step step' M a (n + b) R s t := (h.symm.left ht).symm

theorem Advance.both {y : τ'} (hs : step s = .go (some x) s') (ht : step' t = .go (some y) t')
    (hM : M x y) (h : Advance step step' M a b R s' t') :
    Advance step step' M (1 + a) (1 + b) R s t :=
  Advance.bind (R := fun u v => u = s' ∧ v = t')
    (.inl ⟨1, 1, [x], [y], s', t', Nat.le_refl _, Nat.le_refl _, Steps.one hs, Steps.one ht,
      .cons hM .nil, rfl, rfl⟩)
    (by rintro _ _ ⟨rfl, rfl⟩; exact h)

theorem Advance.done {y : τ'} (hs : step s = .done (some x) r) (ht : step' t = .done (some y) r)
    (hM : M x y) : Advance step step' M a b R s t :=
  .inr ⟨[x], [y], r, ⟨0, s, [], some x, .zero s, hs, rfl⟩, ⟨0, t, [], some y, .zero t, ht, rfl⟩,
    .cons hM .nil⟩

end advance

theorem advance_many {R : σ → σ' → Prop} (hR : ∀ s t, R s t → Advance step step' M 1 1 R s t)
    (k : Nat) {s : σ} {t : σ'} (hst : R s t) : Advance step step' M k k R s t := by
  induction k with
  | zero => exact Advance.here hst
  | succ k ih => exact ih.bind hR

theorem follows_of_simulation {R : σ → σ' → Prop}
    (hR : ∀ s t, R s t → Advance step step' M 1 1 R s t) {s : σ} {t : σ'} (hst : R s t) :
    Follows step step' M s t := by
  have hends : ∀ tr r, Ends step s tr r → ∃ tr', List.Forall₂ M tr tr' ∧ Ends step' t tr' r := by
    rintro tr r ⟨n, s', tr₁, out, hn, hdone, rfl⟩
    have hend : Ends step s (tr₁ ++ out.toList) r := ⟨n, s', tr₁, out, hn, hdone, rfl⟩
    rcases advance_many hR (n + 1) hst with ⟨m, _, _, _, _, _, hm, -, hs, -⟩ |
      ⟨tr, tr', r', hs, ht, hM⟩
    · have := hn.le_of_not_go (by simp [hdone]) hs
      omega
    · obtain ⟨rfl, rfl⟩ := hend.det hs
      exact ⟨tr', hM, ht⟩
  refine ⟨hends, ?observes, ?diverges, ?never_stuck⟩
  case observes =>
    rintro tr (⟨n, s', hn⟩ | ⟨r, hr⟩)
    · -- The observations so far are the first ones of a longer run.
      rcases advance_many hR n hst with ⟨m, k, trs, trt, u, v, hm, -, hs, ht, hM, -⟩ |
        ⟨trs, trt, r, ⟨m, u, tr₁, out, hs, hdone, rfl⟩, ht, hM⟩
      · obtain ⟨tr₁, tr₂, w, h₁, -, rfl⟩ := hs.split hm
        obtain ⟨rfl, -⟩ := hn.det h₁
        have htake := List.forall₂_take tr.length hM
        rw [take_left] at htake
        exact ⟨_, htake, .inl (ht.take _)⟩
      · obtain ⟨tr₁, tr₂, w, h₁, -, rfl⟩ := hs.split (hs.le_of_not_go (by simp [hdone]) hn)
        obtain ⟨rfl, -⟩ := hn.det h₁
        have htake := List.forall₂_take tr.length hM
        rw [append_assoc, take_left] at htake
        exact ⟨_, htake, ht.observes_take _⟩
    · obtain ⟨tr', hM, ht⟩ := hends tr r hr
      exact ⟨tr', hM, .inr ⟨r, ht⟩⟩
  case diverges =>
    intro hdiv n
    rcases advance_many hR n hst with ⟨_, k, _, _, _, _, -, hk, -, ht, -⟩ |
      ⟨_, _, r, ⟨m, u, _, out, hs, hdone, -⟩, -⟩
    · obtain ⟨tr₁, _, w, h₁, -⟩ := ht.split hk
      exact ⟨tr₁, w, h₁⟩
    · obtain ⟨tr, s', h⟩ := hdiv (m + 1)
      have := hs.le_of_not_go (by simp [hdone]) h
      omega
  case never_stuck =>
    intro n tr s' hn hstuck
    rcases advance_many hR (n + 1) hst with ⟨m, _, _, _, _, _, hm, -, hs, -⟩ |
      ⟨_, _, r, ⟨m, u, _, out, hs, hdone, -⟩, -⟩
    · have := hn.le_of_not_go (by simp [hstuck]) hs
      omega
    · have hle := hn.le_of_not_go (by simp [hstuck]) hs
      have hge := hs.le_of_not_go (by simp [hdone]) hn
      obtain rfl : m = n := by omega
      obtain ⟨-, rfl⟩ := hs.det hn
      rw [hdone] at hstuck
      cases hstuck

/--
**Simulation.** If related states always advance to related states or stop alike, and the
second machine comes silently to a state related to `s`, then the two machines do the same.
-/
theorem sameRuns_of_simulation {R : σ → σ' → Prop}
    (hR : ∀ s t, R s t → Advance step step' M 1 1 R s t) {s : σ} {t t' : σ'} {k : Nat}
    (hsilent : Steps step' k t [] t') (hst : R s t') : SameRuns step step' M s t := by
  -- The pair of start states joins the relation, with the silent steps added to its advance.
  have hR' : ∀ x y, (R x y ∨ (x = s ∧ y = t)) →
      Advance step step' M 1 1 (fun x y => R x y ∨ (x = s ∧ y = t)) x y := by
    rintro x y (hxy | ⟨rfl, rfl⟩)
    · exact (hR x y hxy).weaken (Nat.le_refl _) (Nat.le_refl _) fun _ _ => .inl
    · exact ((hR x t' hst).right hsilent).weaken (Nat.le_refl _) (by omega) fun _ _ => .inl
  have h0 : R s t ∨ (s = s ∧ t = t) := .inr ⟨rfl, rfl⟩
  have hsym : ∀ x y, (R y x ∨ (y = s ∧ x = t)) → Advance step' step (fun x y => M y x) 1 1
      (fun x y => R y x ∨ (y = s ∧ x = t)) x y := fun x y h => (hR' y x h).symm
  exact ⟨follows_of_simulation hR' h0, follows_of_simulation hsym h0⟩

end simulation

/-! ## Following every step -/

section mirrors

variable {step : σ → Move σ τ ρ} {step' : σ' → Move σ' τ' ρ} {R : σ → σ' → Prop} {n : Nat} {s : σ}
  {t : σ'}

def Halts (step : σ → Move σ τ ρ) (s : σ) (move : Move σ τ ρ) : Prop :=
  (∀ out u, move ≠ .go out u) ∧ ∃ n tr u, Steps step n s tr u ∧ step u = move

variable {move : Move σ τ ρ}

theorem Halts.det {move' : Move σ τ ρ} (h : Halts step s move) (h' : Halts step s move') :
    move = move' := by
  obtain ⟨hgo, n, tr, u, hu, rfl⟩ := h
  obtain ⟨hgo', n', tr', u', hu', rfl⟩ := h'
  have hle := hu.le_of_not_go hgo hu'
  have hge := hu'.le_of_not_go hgo' hu
  obtain rfl : n = n' := by omega
  rw [(hu.det hu').2]

theorem Halts.not_diverges (h : Halts step s move) : ¬ Diverges step s := by
  obtain ⟨hgo, n, tr, u, hu, rfl⟩ := h
  intro hdiv
  obtain ⟨tr', v, hv⟩ := hdiv (n + 1)
  have := hu.le_of_not_go hgo hv
  omega

theorem diverges_of_not_halts (h : ∀ move, ¬ Halts step s move) : Diverges step s := by
  intro n
  induction n with
  | zero => exact ⟨[], s, .zero s⟩
  | succ n ih =>
    obtain ⟨tr, u, hu⟩ := ih
    cases hmove : step u with
    | go out v => exact ⟨_, v, hu.trans (Steps.one hmove)⟩
    | done out r => exact absurd ⟨nofun, n, tr, u, hu, hmove⟩ (h (.done out r))
    | stuck => exact absurd ⟨nofun, n, tr, u, hu, hmove⟩ (h .stuck)

def FollowsMove (step' : σ' → Move σ' τ' ρ) (R : σ → σ' → Prop) (t : σ') : Move σ τ ρ → Prop
  | .go _ s' => ∃ n tr t', Steps step' (n + 1) t tr t' ∧ R s' t'
  | .done _ r => ∃ out, Halts step' t (.done out r)
  | .stuck => Halts step' t .stuck

def Mirrors (step : σ → Move σ τ ρ) (step' : σ' → Move σ' τ' ρ) (R : σ → σ' → Prop) : Prop :=
  ∀ s t, R s t → FollowsMove step' R t (step s)

structure SameOutcome (step : σ → Move σ τ ρ) (step' : σ' → Move σ' τ' ρ) (s : σ) (t : σ') :
    Prop where
  done : ∀ r, (∃ out, Halts step s (.done out r)) ↔ ∃ out, Halts step' t (.done out r)
  stuck : Halts step s .stuck ↔ Halts step' t .stuck
  diverges : Diverges step s ↔ Diverges step' t

theorem Mirrors.steps (h : Mirrors step step' R) (hst : R s t) {tr : List τ} {s' : σ}
    (hs : Steps step n s tr s') : ∃ m tr' t', n ≤ m ∧ Steps step' m t tr' t' ∧ R s' t' := by
  induction hs generalizing t with
  | zero s => exact ⟨0, [], t, Nat.le_refl _, .zero t, hst⟩
  | @succ n s s₁ s' out tr hmove _ ih =>
    have hnext := h s t hst
    rw [hmove] at hnext
    obtain ⟨k, tr₁, t₁, ht₁, hR⟩ := hnext
    obtain ⟨m, tr₂, t', hle, ht', hR'⟩ := ih hR
    exact ⟨k + 1 + m, tr₁ ++ tr₂, t', by omega, ht₁.trans ht', hR'⟩

theorem Mirrors.diverges (h : Mirrors step step' R) (hst : R s t) (hdiv : Diverges step s) :
    Diverges step' t := by
  intro n
  obtain ⟨tr, s', hs⟩ := hdiv n
  obtain ⟨m, tr', t', hle, ht, -⟩ := h.steps hst hs
  obtain ⟨tr₁, _, u, hu, -⟩ := ht.split hle
  exact ⟨tr₁, u, hu⟩

theorem Halts.of_steps {tr : List τ} {u : σ} (hs : Steps step n s tr u) (h : Halts step u move) :
    Halts step s move := by
  obtain ⟨hgo, m, tr', v, hv, hmove⟩ := h
  exact ⟨hgo, n + m, tr ++ tr', v, hs.trans hv, hmove⟩

theorem Mirrors.halts (h : Mirrors step step' R) (hst : R s t) (hm : Halts step s move) :
    (∃ out out' r, move = .done out r ∧ Halts step' t (.done out' r)) ∨
      (move = .stuck ∧ Halts step' t .stuck) := by
  obtain ⟨hgo, n, tr, u, hu, rfl⟩ := hm
  obtain ⟨m, tr', v, -, hv, hR⟩ := h.steps hst hu
  have hend := h u v hR
  cases hmove : step u with
  | go out u' => exact absurd hmove (hgo out u')
  | done out r =>
    rw [hmove] at hend
    obtain ⟨out', hend⟩ := hend
    exact .inl ⟨out, out', r, rfl, hend.of_steps hv⟩
  | stuck =>
    rw [hmove] at hend
    exact .inr ⟨rfl, hend.of_steps hv⟩

/-- **Machines of which one follows every step of the other end alike.** -/
theorem Mirrors.sameOutcome (h : Mirrors step step' R) (hst : R s t) :
    SameOutcome step step' s t := by
  -- Whatever the second machine does, the first one halts or runs forever, and that is followed.
  have hback : ∀ move', Halts step' t move' → ∃ move, Halts step s move := by
    intro move' hmove'
    by_contra hnone
    exact hmove'.not_diverges (h.diverges hst (diverges_of_not_halts (not_exists.mp hnone)))
  refine ⟨fun r => ⟨?_, ?_⟩, ⟨?_, ?_⟩, ⟨h.diverges hst, ?_⟩⟩
  · rintro ⟨out, hm⟩
    rcases h.halts hst hm with ⟨_, out', r', heq, hend⟩ | ⟨heq, -⟩ <;> cases heq
    exact ⟨out', hend⟩
  · rintro ⟨out', hm'⟩
    obtain ⟨move, hm⟩ := hback _ hm'
    rcases h.halts hst hm with ⟨out, out₂, r', rfl, hend⟩ | ⟨rfl, hend⟩ <;> cases hm'.det hend
    exact ⟨out, hm⟩
  · intro hm
    rcases h.halts hst hm with ⟨_, out', r', heq, -⟩ | ⟨-, hend⟩
    · cases heq
    · exact hend
  · intro hm'
    obtain ⟨move, hm⟩ := hback _ hm'
    rcases h.halts hst hm with ⟨out, out₂, r', rfl, hend⟩ | ⟨rfl, hend⟩
    · cases hm'.det hend
    · exact hm
  · intro hdiv
    refine diverges_of_not_halts fun move hm => ?_
    rcases h.halts hst hm with ⟨_, _, _, -, hend⟩ | ⟨-, hend⟩
    · exact hend.not_diverges hdiv
    · exact hend.not_diverges hdiv

end mirrors

end Kseal.Infra
