import Mathlib.Order.Basic

/-!
# Gates that admit increasing numbers

A gate admits a number above its last one as long as it is open, and stays closed once it is closed
(`Kept.increasing`, `Kept.final`).
-/

namespace Kseal.Infra

open List

structure Gate (ν : Type) where
  last : ν
  isOpen : Bool

namespace Gate

variable {κ ν : Type}

inductive Entry (κ ν : Type) where
  | admitted (k : κ) (n : ν)
  | closed (k : κ)
deriving DecidableEq

variable [DecidableEq κ]

def numbers (k : κ) (log : List (Entry κ ν)) : List ν :=
  log.filterMap fun
    | .admitted k' n => if k' = k then some n else none
    | .closed _ => none

@[simp] theorem numbers_nil (k : κ) : numbers k ([] : List (Entry κ ν)) = [] := rfl

@[simp] theorem numbers_append (k : κ) (log log' : List (Entry κ ν)) :
    numbers k (log ++ log') = numbers k log ++ numbers k log' :=
  filterMap_append

@[simp] theorem numbers_admitted (k k' : κ) (n : ν) :
    numbers k [.admitted k' n] = if k' = k then [n] else [] := by
  unfold numbers
  by_cases h : k' = k <;> simp [h]

@[simp] theorem numbers_closed (k k' : κ) : numbers k ([.closed k'] : List (Entry κ ν)) = [] := rfl

structure Kept [LE ν] [LT ν] (floor : ν) (gates : κ → Option (Gate ν)) (log : List (Entry κ ν)) :
    Prop where
  above : ∀ {k g}, gates k = some g → floor ≤ g.last
  increasing : ∀ k, (floor :: numbers k log).Pairwise (· < ·)
  reached : ∀ {k n}, n ∈ numbers k log → ∃ g, gates k = some g ∧ n ≤ g.last
  shut : ∀ {k}, .closed k ∈ log → ∃ g, gates k = some g ∧ g.isOpen = false
  final : ∀ {k before after}, log = before ++ .closed k :: after → numbers k after = []

variable [Preorder ν] {floor : ν} {gates gates' : κ → Option (Gate ν)} {log : List (Entry κ ν)}
  {k : κ}

theorem Kept.nil (h : ∀ {k g}, gates k = some g → floor ≤ g.last) :
    Kept floor gates ([] : List (Entry κ ν)) where
  above := h
  increasing k := pairwise_singleton _ _
  reached := by simp
  shut := by simp
  final h := absurd h (by simp)

theorem append_eq_split {α : Type} {l before after : List α} {x y : α}
    (h : l ++ [y] = before ++ x :: after) :
    (after = [] ∧ before = l ∧ x = y) ∨
      ∃ after', after = after' ++ [y] ∧ l = before ++ x :: after' := by
  rcases eq_nil_or_concat after with rfl | ⟨after', z, hafter⟩
  · obtain ⟨hl, hy⟩ := append_inj' h rfl
    exact .inl ⟨rfl, hl.symm, (List.cons.inj hy).1.symm⟩
  · rw [concat_eq_append] at hafter
    subst hafter
    rw [← cons_append, ← append_assoc] at h
    obtain ⟨hl, hy⟩ := append_inj' h rfl
    obtain rfl : y = z := (List.cons.inj hy).1
    exact .inr ⟨after', rfl, hl⟩

/-- **A number above the last one is admitted** at an open gate. -/
theorem Kept.admit (h : Kept floor gates log) {g : Gate ν} {n : ν} (hg : gates k = some g)
    (hopen : g.isOpen = true) (hn : g.last < n)
    (hgates : ∀ k', gates' k' = if k' = k then some { g with last := n } else gates k') :
    Kept floor gates' (log ++ [.admitted k n]) := by
  have hself : gates' k = some { g with last := n } := by rw [hgates, if_pos rfl]
  have hother : ∀ {k'}, k' ≠ k → gates' k' = gates k' := fun hne => by rw [hgates, if_neg hne]
  refine ⟨?_, ?_, ?_, ?_, ?_⟩
  · intro k' g' hg'
    by_cases hk : k' = k
    · rw [hk, hself] at hg'
      cases hg'
      exact (h.above hg).trans hn.le
    · exact h.above (by rw [← hother hk]; exact hg')
  · intro k'
    rw [numbers_append, numbers_admitted]
    by_cases hk : k = k'
    · subst hk
      rw [if_pos rfl, ← cons_append, pairwise_append]
      refine ⟨h.increasing k, pairwise_singleton _ _, ?_⟩
      intro m hm n' hn'
      rw [mem_singleton.mp hn']
      rcases mem_cons.mp hm with rfl | hm
      · exact (h.above hg).trans_lt hn
      · obtain ⟨g', hg', hle⟩ := h.reached hm
        obtain rfl : g = g' := Option.some.inj (hg.symm.trans hg')
        exact hle.trans_lt hn
    · rw [if_neg hk, append_nil]
      exact h.increasing k'
  · intro k' m hm
    rw [numbers_append, numbers_admitted] at hm
    by_cases hk : k' = k
    · subst hk
      refine ⟨_, hself, ?_⟩
      rw [if_pos rfl] at hm
      rcases mem_append.mp hm with hm | hm
      · obtain ⟨g', hg', hle⟩ := h.reached hm
        obtain rfl : g = g' := Option.some.inj (hg.symm.trans hg')
        exact hle.trans hn.le
      · exact (mem_singleton.mp hm).le
    · rw [if_neg (Ne.symm hk), append_nil] at hm
      rw [hother hk]
      exact h.reached hm
  · intro k' hmem
    rcases mem_append.mp hmem with hmem | hmem
    · obtain ⟨g', hg', hshut⟩ := h.shut hmem
      have hk : k' ≠ k := by
        rintro rfl
        obtain rfl : g = g' := Option.some.inj (hg.symm.trans hg')
        rw [hopen] at hshut
        cases hshut
      exact ⟨g', by rw [hother hk]; exact hg', hshut⟩
    · cases mem_singleton.mp hmem
  · intro k' before after hlog
    rcases append_eq_split hlog with ⟨-, -, hentry⟩ | ⟨after', rfl, hlog'⟩
    · cases hentry
    · rw [numbers_append, h.final hlog', numbers_admitted, nil_append, if_neg]
      rintro rfl
      -- The gate would have been closed before.
      obtain ⟨g', hg', hshut⟩ := h.shut (k := k) (by rw [hlog']; simp)
      obtain rfl : g = g' := Option.some.inj (hg.symm.trans hg')
      rw [hopen] at hshut
      cases hshut

theorem Kept.close (h : Kept floor gates log) {g : Gate ν} (hg : gates k = some g)
    (hgates : ∀ k', gates' k' = if k' = k then some { g with isOpen := false } else gates k') :
    Kept floor gates' (log ++ [.closed k]) := by
  have hfound : ∀ {k' g'}, gates k' = some g' → ∃ g'', gates' k' = some g'' ∧
      g''.last = g'.last ∧ (g'.isOpen = false → g''.isOpen = false) := by
    intro k' g' hg'
    by_cases hk : k' = k
    · subst hk
      obtain rfl : g = g' := Option.some.inj (hg.symm.trans hg')
      exact ⟨{ g with isOpen := false }, by rw [hgates, if_pos rfl], rfl, fun _ => rfl⟩
    · exact ⟨g', by rw [hgates, if_neg hk, hg'], rfl, id⟩
  refine ⟨?_, ?_, ?_, ?_, ?_⟩
  · intro k' g' hg'
    rw [hgates] at hg'
    split at hg'
    · cases hg'
      show floor ≤ g.last
      exact h.above hg
    · exact h.above hg'
  · intro k'
    rw [numbers_append, numbers_closed, append_nil]
    exact h.increasing k'
  · intro k' n hn
    rw [numbers_append, numbers_closed, append_nil] at hn
    obtain ⟨g', hg', hle⟩ := h.reached hn
    obtain ⟨g'', hg'', hlast, -⟩ := hfound hg'
    exact ⟨g'', hg'', by rw [hlast]; exact hle⟩
  · intro k' hmem
    rcases mem_append.mp hmem with hmem | hmem
    · obtain ⟨g', hg', hshut⟩ := h.shut hmem
      obtain ⟨g'', hg'', -, hkeep⟩ := hfound hg'
      exact ⟨g'', hg'', hkeep hshut⟩
    · cases mem_singleton.mp hmem
      exact ⟨_, by rw [hgates, if_pos rfl], rfl⟩
  · intro k' before after hlog
    rcases append_eq_split hlog with ⟨rfl, -, -⟩ | ⟨after', rfl, hlog'⟩
    · rfl
    · rw [numbers_append, h.final hlog', numbers_closed, nil_append]

theorem Kept.create (h : Kept floor gates log) {g : Gate ν} (hnone : gates k = none)
    (hg : floor ≤ g.last) (hgates : ∀ k', gates' k' = if k' = k then some g else gates k') :
    Kept floor gates' log := by
  have hfound : ∀ {k' g'}, gates k' = some g' → gates' k' = some g' := by
    intro k' g' hg'
    have hk : k' ≠ k := by
      rintro rfl
      rw [hnone] at hg'
      cases hg'
    rw [hgates, if_neg hk, hg']
  refine ⟨?_, h.increasing, ?_, ?_, h.final⟩
  · intro k' g' hg'
    rw [hgates] at hg'
    split at hg'
    · cases hg'
      exact hg
    · exact h.above hg'
  · intro k' n hn
    obtain ⟨g', hg', hle⟩ := h.reached hn
    exact ⟨g', hfound hg', hle⟩
  · intro k' hmem
    obtain ⟨g', hg', hshut⟩ := h.shut hmem
    exact ⟨g', hfound hg', hshut⟩

theorem Kept.nodup (h : Kept floor gates log) (k : κ) : (numbers k log).Nodup :=
  (pairwise_cons.mp (h.increasing k)).2.imp fun hlt => hlt.ne

end Gate

end Kseal.Infra
