import Mathlib.Algebra.BigOperators.Group.Finset.Basic
import Mathlib.Algebra.Order.BigOperators.Group.Finset
import Mathlib.Order.Lattice.Nat
import Mathlib.Tactic.Linarith

/-!
# Saturating sums

Weights are added up to a cap. `satSum_image_iff` says when a renaming of the indices, which may
drop some and join others, does not change the sum.
-/

namespace Kseal.Infra

open Finset

variable {ι κ : Type} [DecidableEq ι] [DecidableEq κ]

def satSum (cap : Nat) (s : Finset ι) (f : ι → Nat) : Nat := min cap (∑ i ∈ s, f i)

def satAdd (cap a b : Nat) : Nat := min cap (a + b)

theorem foldl_satAdd (cap : Nat) (xs : List Nat) (a : Nat) (ha : a ≤ cap) :
    xs.foldl (satAdd cap) a = min cap (a + xs.sum) := by
  induction xs generalizing a with
  | nil => simp [ha]
  | cons x xs ih =>
    have hle : satAdd cap a x ≤ cap := Nat.min_le_left _ _
    rw [List.foldl_cons, ih _ hle, List.sum_cons]
    unfold satAdd
    omega

omit [DecidableEq ι] in
theorem satSum_le_satSum (cap : Nat) {s t : Finset ι} {f g : ι → Nat} (hst : s ⊆ t)
    (hfg : ∀ i ∈ s, f i ≤ g i) : satSum cap s f ≤ satSum cap t g := by
  have hsum : ∑ i ∈ s, f i ≤ ∑ i ∈ t, g i :=
    (sum_le_sum hfg).trans (sum_le_sum_of_subset hst)
  unfold satSum
  omega

section image

variable {cap : Nat} {f : ι → Nat} {p : ι → Prop} [DecidablePred p] {g : ι → κ} {h : κ → Nat}

structure KeepsWeights (cap : Nat) (f : ι → Nat) (p : ι → Prop) (g : ι → κ) (h : κ → Nat) : Prop where
  dropped : ∀ i, ¬ p i → f i = 0
  kept : ∀ i, p i → f i = h (g i)
  shared : ∀ i j, i ≠ j → p i → p j → g i = g j → h (g i) = 0 ∨ h (g i) = cap

omit [DecidableEq ι] in
theorem sum_eq_cap_le {s : Finset ι} {i : ι} (hi : i ∈ s) (hf : f i = cap) : cap ≤ ∑ j ∈ s, f j := by
  rw [← hf]
  exact single_le_sum (fun j _ => Nat.zero_le (f j)) hi

theorem satSum_image_of_keepsWeights (hw : KeepsWeights cap f p g h) (s : Finset ι) :
    satSum cap s f = satSum cap ((s.filter p).image g) h := by
  unfold satSum
  by_cases hcap : ∃ i ∈ s, p i ∧ h (g i) = cap
  · -- One weight is the cap, so both sums are cut.
    obtain ⟨i, hi, hp, hc⟩ := hcap
    have hleft := sum_eq_cap_le hi ((hw.kept i hp).trans hc)
    have hright : cap ≤ ∑ k ∈ (s.filter p).image g, h k :=
      sum_eq_cap_le (mem_image_of_mem g (mem_filter.mpr ⟨hi, hp⟩)) hc
    omega
  · -- Otherwise a weight that is shared is zero, and the two sums are equal.
    have hdrop : ∑ i ∈ s, f i = ∑ i ∈ s.filter p, h (g i) := by
      rw [sum_filter]
      refine sum_congr rfl fun i _ => ?_
      by_cases hp : p i
      · rw [if_pos hp, hw.kept i hp]
      · rw [if_neg hp, hw.dropped i hp]
    have hsum : ∑ i ∈ s.filter p, h (g i) = ∑ k ∈ (s.filter p).image g, h k := by
      have hfiber : ∀ k ∈ (s.filter p).image g, ∑ i ∈ s.filter p with g i = k, h (g i) = h k := by
        intro k hk
        obtain ⟨i, hi, rfl⟩ := mem_image.mp hk
        obtain ⟨his, hpi⟩ := mem_filter.mp hi
        by_cases hz : h (g i) = 0
        · rw [hz]
          refine sum_eq_zero fun j hj => ?_
          rw [(mem_filter.mp hj).2, hz]
        · have hsingle : (s.filter p).filter (fun j => g j = g i) = {i} := by
            ext j
            rw [mem_filter, mem_singleton]
            constructor
            · rintro ⟨hj, hgj⟩
              by_contra hne
              rcases hw.shared i j (Ne.symm hne) hpi (mem_filter.mp hj).2 hgj.symm with h0 | hc
              · exact hz h0
              · exact hcap ⟨i, his, hpi, hc⟩
            · rintro rfl
              exact ⟨hi, rfl⟩
          rw [hsingle, sum_singleton]
      rw [← sum_congr rfl hfiber]
      exact (sum_fiberwise_of_maps_to (fun i hi => mem_image_of_mem g hi) _).symm
    rw [hdrop, hsum]

theorem keepsWeights_of_pairs (hf : ∀ i, f i ≤ cap) (hh : ∀ k, h k ≤ cap)
    (heq : ∀ i j, satSum cap {i, j} f = satSum cap ((({i, j} : Finset ι).filter p).image g) h) :
    KeepsWeights cap f p g h := by
  have hone : ∀ i, f i = if p i then h (g i) else 0 := by
    intro i
    have hi := heq i i
    rw [pair_eq_singleton] at hi
    unfold satSum at hi
    rw [sum_singleton, Nat.min_eq_right (hf i)] at hi
    by_cases hp : p i
    · rw [filter_singleton, if_pos hp, image_singleton, sum_singleton,
        Nat.min_eq_right (hh _)] at hi
      rw [if_pos hp, hi]
    · rw [filter_singleton, if_neg hp, image_empty, sum_empty] at hi
      rw [if_neg hp, hi, Nat.min_zero]
  refine ⟨fun i hp => by rw [hone, if_neg hp], fun i hp => by rw [hone, if_pos hp], ?_⟩
  intro i j hij hpi hpj hg
  have hpair := heq i j
  have hfilter : ({i, j} : Finset ι).filter p = {i, j} := by
    apply filter_true_of_mem
    intro k hk
    rcases mem_insert.mp hk with rfl | hk
    · exact hpi
    · rw [mem_singleton.mp hk]; exact hpj
  have himage : ({i, j} : Finset ι).image g = {g i} := by
    rw [image_insert, image_singleton, hg, pair_eq_singleton]
  unfold satSum at hpair
  rw [hfilter, himage, sum_pair hij, sum_singleton, hone i, hone j, if_pos hpi,
    if_pos hpj, ← hg] at hpair
  have hle := hh (g i)
  omega

theorem satSum_image_iff (hf : ∀ i, f i ≤ cap) (hh : ∀ k, h k ≤ cap) :
    (∀ s, satSum cap s f = satSum cap ((s.filter p).image g) h) ↔ KeepsWeights cap f p g h := by
  constructor
  · exact fun heq => keepsWeights_of_pairs hf hh fun i j => heq {i, j}
  · exact fun hw s => satSum_image_of_keepsWeights hw s

end image

end Kseal.Infra
