import Kseal.Device.Policy
import Kseal.Server.RiskOrder

/-!
# More signals, no milder decision

On the device and on the server a bitset that contains another one is scored no lower, reaches no
milder level and gets no milder decision (`evaluation_monotone`).
-/

namespace Kseal.Contract

open Infra Wire Risk

def decideWire (weights : Option (GoMap UInt32 UInt32)) (thresholds : Option (GoMap String UInt32))
    (mode : EnforcementMode) (wire : UInt64) : Decision :=
  decision (level (score (fromWire wire) weights) thresholds) mode

def decideOnDevice (p : Device.Policy) (mode : EnforcementMode) (signals : UInt64) : Decision :=
  Device.decision
    (p.trustLevelForScore (Device.weightedScore (p.filterSignals signals) p.config.signalWeights))
    mode

variable {w w' : UInt64}

theorem weightedScore_le_weightedScore (weights : GoMap UInt32 UInt32) (h : bits w ⊆ bits w') :
    Device.weightedScore w weights ≤ Device.weightedScore w' weights := by
  rw [UInt32.le_iff_toNat_le, Device.toNat_weightedScore, Device.toNat_weightedScore]
  exact satSum_le_satSum _ h fun _ _ => Nat.le_refl _

theorem bits_filterSignals_subset (p : Device.Policy) (h : bits w ⊆ bits w') :
    bits (p.filterSignals w) ⊆ bits (p.filterSignals w') := by
  unfold Device.Policy.filterSignals
  rw [bits_and, bits_and]
  exact Finset.inter_subset_inter_right h

theorem levelLe_trustLevelForScore (p : Device.Policy) {score score' : UInt32}
    (h : score ≤ score') : LevelLe (p.trustLevelForScore score) (p.trustLevelForScore score') := by
  intro n hn hle
  rw [Device.le_trustLevelForScore_iff _ _ hn] at hle ⊢
  obtain ⟨e, he, t, ht, hne, hx⟩ := hle
  exact ⟨e, he, t, ht, hne, UInt32.le_trans hx h⟩

theorem decideWire_mono (weights : Option (GoMap UInt32 UInt32))
    (thresholds : Option (GoMap String UInt32)) (mode : EnforcementMode) (h : bits w ⊆ bits w') :
    severity (decideWire weights thresholds mode w) ≤
      severity (decideWire weights thresholds mode w') := by
  have hscore : score (fromWire w) weights ≤ score (fromWire w') weights :=
    score_le_score (bits_fromWire_subset h) fun _ => UInt32.le_refl _
  exact severity_decision_le (levelLe_level hscore (.refl thresholds)) (.inl rfl)

theorem decideOnDevice_mono (p : Device.Policy) (mode : EnforcementMode) (h : bits w ⊆ bits w') :
    severity (decideOnDevice p mode w) ≤ severity (decideOnDevice p mode w') := by
  have hscore := weightedScore_le_weightedScore p.config.signalWeights
    (bits_filterSignals_subset p h)
  -- The table of the device is the one of the server.
  exact severity_decision_le (levelLe_trustLevelForScore p hscore) (.inl rfl)

/-- **Evaluation is monotone on both sides, and both scores are saturating sums.** -/
theorem evaluation_monotone :
    (∀ weights thresholds mode (w w' : UInt64), bits w ⊆ bits w' →
      severity (decideWire weights thresholds mode w) ≤
        severity (decideWire weights thresholds mode w')) ∧
    (∀ (p : Device.Policy) mode (w w' : UInt64), bits w ⊆ bits w' →
      severity (decideOnDevice p mode w) ≤ severity (decideOnDevice p mode w')) ∧
    (∀ (w : UInt64) weights, (score w weights).toNat =
      min (2 ^ 32 - 1) (∑ i ∈ bits w, (bitWeight weights i).toNat)) ∧
    ∀ (w : UInt64) weights, (Device.weightedScore w weights).toNat =
      min (2 ^ 32 - 1) (∑ i ∈ bits w, (Device.signalWeight weights i).toNat) := by
  refine ⟨?_, ?_, toNat_score, Device.toNat_weightedScore⟩
  · intro weights thresholds mode w w' h
    exact decideWire_mono weights thresholds mode h
  · intro p mode w w' h
    exact decideOnDevice_mono p mode h

theorem evaluation_monotone_rootHookTamper :
    decideWire none none .block 1 = .allow ∧ decideWire none none .block 0x61 = .deny ∧
      severity (decideWire none none .block 1) ≤ severity (decideWire none none .block 0x61) :=
  ⟨by decide +kernel, by decide +kernel,
    evaluation_monotone.1 none none .block 1 0x61 (by decide +kernel)⟩

end Kseal.Contract
