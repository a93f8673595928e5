import Kseal.Infra.Bits
import Kseal.Infra.SatSum
import Kseal.Wire.Messages

/-!
# Risk scoring and policy evaluation on the device (`risk.rs`, `policy.rs`)

The device scores the bits as it packs them, with the weights of the policy it was sent.

* `le_trustLevelForScore_iff` — a level is reached exactly if its threshold, or one of a worse
  level, is
-/

namespace Kseal.Device

open Infra Wire List Finset

/-! ## Risk bits -/

abbrev RiskBitset := UInt64

namespace RiskBitset

def root : RiskBitset := oneBit 0
def jailbreak : RiskBitset := oneBit 1
def emulator : RiskBitset := oneBit 2
def simulator : RiskBitset := oneBit 3
def debugger : RiskBitset := oneBit 4
def hooking : RiskBitset := oneBit 5
def tamper : RiskBitset := oneBit 6
def appIntegrity : RiskBitset := oneBit 7
def networkMitm : RiskBitset := oneBit 8
def environment : RiskBitset := oneBit 9
def proxy : RiskBitset := oneBit 10
def userCa : RiskBitset := oneBit 11
def pinningFailure : RiskBitset := oneBit 12
def attestationFail : RiskBitset := oneBit 13
def secureHwMissing : RiskBitset := oneBit 14
def repackaged : RiskBitset := oneBit 15

end RiskBitset

def defaultSignalWeight : UInt32 := 10

def saturatingAdd (a b : UInt32) : UInt32 :=
  if a.toNat + b.toNat < 2 ^ 32 then a + b else 0xffffffff

def signalWeight (weights : GoMap UInt32 UInt32) (idx : Nat) : UInt32 :=
  (weights.lookup (UInt32.ofNat idx)).getD defaultSignalWeight

def weightedScoreLoop (weights : GoMap UInt32 UInt32) : Nat → UInt64 → UInt32 → UInt32
  | 0, _, score => score
  | fuel + 1, bits, score =>
    if bits = 0 then score
    else
      weightedScoreLoop weights fuel (bits &&& (bits - 1))
        (saturatingAdd score (signalWeight weights (trailingZeros bits)))

def weightedScore (bits : RiskBitset) (weights : GoMap UInt32 UInt32) : UInt32 :=
  weightedScoreLoop weights 64 bits 0

theorem toNat_saturatingAdd (a b : UInt32) :
    (saturatingAdd a b).toNat = satAdd (2 ^ 32 - 1) a.toNat b.toNat := by
  unfold saturatingAdd satAdd
  by_cases h : a.toNat + b.toNat < 2 ^ 32
  · rw [if_pos h, UInt32.toNat_add]
    omega
  · rw [if_neg h]
    show 2 ^ 32 - 1 = _
    omega

theorem toNat_weightedScoreLoop (weights : GoMap UInt32 UInt32) (fuel : Nat) (w : UInt64)
    (score : UInt32) (hfuel : (bits w).card ≤ fuel) :
    (weightedScoreLoop weights fuel w score).toNat =
      min (2 ^ 32 - 1) (score.toNat + ∑ i ∈ bits w, (signalWeight weights i).toNat) := by
  induction fuel generalizing w score with
  | zero =>
    have hempty : bits w = ∅ := card_eq_zero.mp (Nat.le_zero.mp hfuel)
    have hlt := score.toNat_lt
    rw [weightedScoreLoop, hempty, sum_empty]
    omega
  | succ fuel ih =>
    rw [weightedScoreLoop]
    by_cases hw : w = 0
    · have hlt := score.toNat_lt
      rw [if_pos hw, hw, bits_zero, sum_empty]
      omega
    · -- The round takes the lowest bit; the others are left to the rounds after it.
      obtain ⟨i, hi, hmem, hlow⟩ := trailingZeros_spec hw
      have hbits := bits_clearLowest hw hmem hlow
      have hcard : (bits (w &&& (w - 1))).card ≤ fuel := by
        rw [hbits, card_erase_of_mem hmem]
        omega
      have hsum := add_sum_erase (bits w) (fun i => (signalWeight weights i).toNat) hmem
      rw [if_neg hw, ih _ _ hcard, hbits, toNat_saturatingAdd, hi]
      unfold satAdd
      omega

/-- **The device's score is the sum of the weights, cut at the largest 32-bit number.** -/
theorem toNat_weightedScore (w : RiskBitset) (weights : GoMap UInt32 UInt32) :
    (weightedScore w weights).toNat =
      satSum (2 ^ 32 - 1) (bits w) fun i => (signalWeight weights i).toNat := by
  have hcard : (bits w).card ≤ 64 := by
    have := card_le_univ (bits w)
    rwa [Fintype.card_fin] at this
  unfold weightedScore satSum
  rw [toNat_weightedScoreLoop _ _ _ _ hcard, UInt32.toNat_zero, Nat.zero_add]

/-! ## Policies -/

def moduleBits (module : String) : RiskBitset :=
  if module = "root" then .root
  else if module = "jailbreak" then .jailbreak
  else if module = "emulator" then .emulator
  else if module = "simulator" then .simulator
  else if module = "debugger" then .debugger
  else if module = "hooking" then .hooking
  else if module = "tamper" then .tamper
  else if module = "app_integrity" then .appIntegrity ||| .repackaged
  else if module = "network_mitm" then .networkMitm ||| .proxy ||| .userCa ||| .pinningFailure
  else if module = "environment" then
    .environment ||| .emulator ||| .simulator ||| .secureHwMissing
  else if module = "attestation" then .attestationFail
  else 0

def thresholdLevels : List (String × TrustLevel) :=
  [("TRUSTED", .trusted), ("LOW_RISK", .lowRisk), ("MEDIUM_RISK", .mediumRisk),
    ("HIGH_RISK", .highRisk), ("CRITICAL", .critical)]

structure Policy where
  config : PolicyConfig
  enabledMask : RiskBitset

def Policy.new (config : PolicyConfig) : Policy where
  config := config
  enabledMask :=
    if config.modulesEnabled.isEmpty then 0xffffffffffffffff
    else config.modulesEnabled.foldl (fun acc m => acc ||| moduleBits m) 0

def Policy.filterSignals (p : Policy) (bits : RiskBitset) : RiskBitset := bits &&& p.enabledMask

def trustLevelLoop (thresholds : GoMap String UInt32) (score : UInt32) :
    TrustLevel → List (String × TrustLevel) → TrustLevel
  | level, [] => level
  | level, (name, lvl) :: rest =>
    match thresholds.lookup name with
    | some threshold =>
      trustLevelLoop thresholds score (if score ≥ threshold then lvl else level) rest
    | none => trustLevelLoop thresholds score level rest

def Policy.trustLevelForScore (p : Policy) (score : UInt32) : TrustLevel :=
  trustLevelLoop p.config.riskThresholds score .trusted thresholdLevels

/-- The generated getter reads a number without a name as `UNSPECIFIED`, which is `OBSERVE` here. -/
def knownMode : EnforcementMode → EnforcementMode
  | .unspecified | .unrecognized _ => .observe
  | other => other

def Policy.defaultMode (p : Policy) : EnforcementMode := knownMode p.config.defaultMode

def decision (level : TrustLevel) (mode : EnforcementMode) : Decision :=
  if mode = .observe then .allow
  else
    match level with
    | .critical => .deny
    | .highRisk => if mode = .block then .deny else .stepUp
    | .mediumRisk => .stepUp
    | _ => .allow

def coreDecision (engine : Option Policy) (signals : RiskBitset) : Decision :=
  match engine with
  | some p =>
    let score := weightedScore (p.filterSignals signals) p.config.signalWeights
    decision (p.trustLevelForScore score) p.defaultMode
  | none => .allow

theorem filterSignals_of_no_modules {config : PolicyConfig} (h : config.modulesEnabled = [])
    (w : RiskBitset) : (Policy.new config).filterSignals w = w := by
  show w &&& (if config.modulesEnabled.isEmpty then _ else _) = w
  rw [h]
  exact UInt64.and_neg_one

theorem le_trustLevelLoop_iff (thresholds : GoMap String UInt32) (score : UInt32)
    (entries : List (String × TrustLevel)) (level : TrustLevel) (n : Nat)
    (hsorted : entries.Pairwise fun a b => a.2.toNat ≤ b.2.toNat)
    (hle : ∀ e ∈ entries, level.toNat ≤ e.2.toNat) :
    n ≤ (trustLevelLoop thresholds score level entries).toNat ↔ n ≤ level.toNat ∨
      ∃ e ∈ entries, ∃ min, thresholds.lookup e.1 = some min ∧ n ≤ e.2.toNat ∧ min ≤ score := by
  induction entries generalizing level with
  | nil => simp [trustLevelLoop]
  | cons e entries ih =>
    obtain ⟨name, lvl⟩ := e
    obtain ⟨hfirst, hsorted⟩ := pairwise_cons.mp hsorted
    have hlvl : level.toNat ≤ lvl.toNat := hle _ mem_cons_self
    have hrest : ∀ e ∈ entries, level.toNat ≤ e.2.toNat := fun e he =>
      hle e (mem_cons_of_mem _ he)
    rw [trustLevelLoop, exists_mem_cons_iff]
    cases hlook : thresholds.lookup name with
    | none => simp [ih _ hsorted hrest]
    | some threshold =>
      by_cases hscore : score ≥ threshold
      · -- The level is replaced by one that is no milder.
        simp only [hscore, if_true]
        rw [ih _ hsorted hfirst]
        constructor
        · rintro (h | h)
          · exact .inr (.inl ⟨threshold, rfl, h, hscore⟩)
          · exact .inr (.inr h)
        · rintro (h | ⟨_, _, h, _⟩ | h)
          · exact .inl (h.trans hlvl)
          · exact .inl h
          · exact .inr h
      · simp only [hscore, if_false]
        rw [ih _ hsorted hrest]
        refine or_congr_right ⟨.inr, ?_⟩
        rintro (⟨min, hmin, -, hle⟩ | h)
        · cases hmin
          exact absurd hle hscore
        · exact h

/-- **A level is reached exactly if its threshold, or one of a worse level, is.** -/
theorem le_trustLevelForScore_iff (p : Policy) (score : UInt32) {n : Nat} (hn : 1 < n) :
    n ≤ (p.trustLevelForScore score).toNat ↔ ∃ e ∈ thresholdLevels, ∃ min,
      p.config.riskThresholds.lookup e.1 = some min ∧ n ≤ e.2.toNat ∧ min ≤ score := by
  unfold Policy.trustLevelForScore
  rw [le_trustLevelLoop_iff _ _ _ _ _ (by decide) (by decide)]
  exact or_iff_right (Nat.not_le.mpr hn)

end Kseal.Device
