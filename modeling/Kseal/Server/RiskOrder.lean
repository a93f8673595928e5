import Kseal.Server.Risk

/-!
# What makes a decision stricter (`shared/risk/risk.go`)

Each step of the evaluation is monotone in the bits, their weights, the thresholds and the mode
(`severity_decision_le`).
-/

namespace Kseal.Risk

open Infra Wire List

def severity : Decision → Nat
  | .unspecified => 0
  | .allow => 1
  | .stepUp => 2
  | .deny => 3

theorem severity_le_iff {d d' : Decision} (h : d ≠ .unspecified) (h' : d' ≠ .unspecified) :
    severity d ≤ severity d' ↔ (d = .deny → d' = .deny) ∧ (d ≠ .allow → d' ≠ .allow) := by
  cases d <;> cases d' <;> simp [severity] at h h' ⊢

/-! ## Scores -/

variable {w w' : UInt64}

theorem bits_fromWire_subset (h : bits w ⊆ bits w') :
    bits (fromWire w) ⊆ bits (fromWire w') := by
  rw [bits_fromWire, bits_fromWire]
  exact Finset.image_subset_image (Finset.filter_subset_filter _ h)

variable {weights weights' : Option (GoMap UInt32 UInt32)}

theorem score_le_score (hbits : bits w ⊆ bits w')
    (hweights : ∀ i, bitWeight weights i ≤ bitWeight weights' i) :
    score w weights ≤ score w' weights' := by
  rw [UInt32.le_iff_toNat_le, toNat_score, toNat_score]
  exact satSum_le_satSum _ hbits fun i _ => UInt32.le_iff_toNat_le.mp (hweights i)

theorem score_congr
    (h : ∀ i : UInt32, i ≤ 63 → (weights.bind (·.lookup i)) = weights'.bind (·.lookup i))
    (w : UInt64) : score w weights = score w weights' := by
  have hbit : ∀ i, bitWeight weights i = bitWeight weights' i := by
    intro i
    have hi : (UInt32.ofNat i.val) ≤ 63 := by
      rw [UInt32.le_iff_toNat_le, UInt32.toNat_ofNat_of_lt' (i.isLt.trans (by decide))]
      exact Nat.le_of_lt_succ i.isLt
    unfold bitWeight
    rw [h _ hi]
  unfold score
  simp only [hbit]

/-! ## Levels -/

def effectiveThreshold (thresholds : Option (GoMap String UInt32)) (l : TrustLevel) :
    Option UInt32 :=
  ((thresholdList thresholds).filterMap fun t => if t.2 = l then some t.1 else none).min?

variable {thresholds : Option (GoMap String UInt32)} {l : TrustLevel}

theorem effectiveThreshold_le_iff {x : UInt32} :
    (∃ t, effectiveThreshold thresholds l = some t ∧ t ≤ x) ↔
      ∃ t ∈ thresholdList thresholds, t.2 = l ∧ t.1 ≤ x := by
  unfold effectiveThreshold
  have hmem : ∀ y, y ∈ ((thresholdList thresholds).filterMap fun t =>
      if t.2 = l then some t.1 else none) ↔ ∃ t ∈ thresholdList thresholds, t.2 = l ∧ t.1 = y := by
    intro y
    simp
  constructor
  · rintro ⟨t, hmin, hle⟩
    obtain ⟨e, he, hl, rfl⟩ := (hmem t).mp (min?_eq_some_iff.mp hmin).1
    exact ⟨e, he, hl, hle⟩
  · rintro ⟨e, he, hl, hle⟩
    have hin := (hmem e.1).mpr ⟨e, he, hl, rfl⟩
    cases hmin : ((thresholdList thresholds).filterMap fun t =>
        if t.2 = l then some t.1 else none).min? with
    | none => exact absurd hin (min?_eq_none_iff.mp hmin ▸ not_mem_nil)
    | some t =>
      have hle' := (min?_eq_some_iff.mp hmin).2 e.1 hin
      exact ⟨t, rfl, UInt32.le_trans hle' hle⟩

def ThresholdsLe (thresholds thresholds' : Option (GoMap String UInt32)) : Prop :=
  ∀ l : TrustLevel, 1 < l.toNat → ∀ t, effectiveThreshold thresholds l = some t →
    ∃ t', effectiveThreshold thresholds' l = some t' ∧ t' ≤ t

theorem ThresholdsLe.refl (thresholds : Option (GoMap String UInt32)) :
    ThresholdsLe thresholds thresholds :=
  fun _ _ t h => ⟨t, h, UInt32.le_refl t⟩

def LevelLe (l l' : TrustLevel) : Prop := ∀ n, 1 < n → n ≤ l.toNat → n ≤ l'.toNat

theorem levelLe_level {score score' : UInt32} {thresholds' : Option (GoMap String UInt32)}
    (hscore : score ≤ score') (hth : ThresholdsLe thresholds thresholds') :
    LevelLe (level score thresholds) (level score' thresholds') := by
  intro n hn hle
  rw [le_level_iff_thresholdList _ _ hn] at hle ⊢
  obtain ⟨e, he, hne, hx⟩ := hle
  obtain ⟨t, ht, htx⟩ := effectiveThreshold_le_iff.mpr ⟨e, he, rfl, hx⟩
  obtain ⟨t', ht', hle⟩ := hth e.2 (Nat.lt_of_lt_of_le hn hne) t ht
  have hx' : t' ≤ score' := UInt32.le_trans hle (UInt32.le_trans htx hscore)
  obtain ⟨e', he', hl, hx'⟩ := effectiveThreshold_le_iff.mp ⟨t', ht', hx'⟩
  exact ⟨e', he', hl ▸ hne, hx'⟩

/-! ## Decisions -/

def ModeLe (mode mode' : EnforcementMode) : Prop :=
  mode = mode' ∨ mode = .observe ∨ (mode = .stepUp ∧ mode' = .block)

variable {mode mode' : EnforcementMode}

theorem ModeLe.ne_observe (h : ModeLe mode mode') (hm : mode ≠ .observe) : mode' ≠ .observe := by
  rcases h with rfl | rfl | ⟨-, rfl⟩
  · exact hm
  · exact absurd rfl hm
  · simp

theorem ModeLe.denyFrom_le (h : ModeLe mode mode') (hm : mode ≠ .observe) :
    denyFrom mode' ≤ denyFrom mode := by
  rcases h with rfl | rfl | ⟨rfl, rfl⟩
  · exact Nat.le_refl _
  · exact absurd rfl hm
  · decide

theorem one_lt_denyFrom (mode : EnforcementMode) : 1 < denyFrom mode := by
  unfold denyFrom
  split <;> decide

/-- **A worse level and a stricter mode give no milder decision.** -/
theorem severity_decision_le {l' : TrustLevel} (hl : LevelLe l l') (hm : ModeLe mode mode') :
    severity (decision l mode) ≤ severity (decision l' mode') := by
  rw [severity_le_iff (decision_ne_unspecified _ _) (decision_ne_unspecified _ _),
    decision_eq_deny_iff, decision_eq_deny_iff, decision_ne_allow_iff, decision_ne_allow_iff]
  constructor
  · rintro ⟨hobs, hdeny⟩
    have hle := (hm.denyFrom_le hobs).trans hdeny
    exact ⟨hm.ne_observe hobs, hl _ (one_lt_denyFrom mode') hle⟩
  · rintro ⟨hobs, hstep⟩
    exact ⟨hm.ne_observe hobs, hl _ (by decide) hstep⟩

end Kseal.Risk
