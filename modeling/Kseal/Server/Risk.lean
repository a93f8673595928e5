import Kseal.Infra.Bits
import Kseal.Infra.SatSum
import Kseal.Wire.Messages

/-!
# Risk scoring on the server (`shared/risk/risk.go`)

The server has its own numbering of the risk bits. What a device reports is translated bit by bit
(`fromWire`), scored, and mapped to a level and a decision (`le_level_iff`).
-/

namespace Kseal.Risk

open Infra Wire List

/-! ## Bits -/

def bitRootJailbreak : UInt64 := oneBit 0
def bitDebugger : UInt64 := oneBit 1
def bitEmulator : UInt64 := oneBit 2
def bitHooking : UInt64 := oneBit 3
def bitAppTamper : UInt64 := oneBit 4
def bitAttestationFail : UInt64 := oneBit 5
def bitNetworkMITM : UInt64 := oneBit 6
def bitAccountRisk : UInt64 := oneBit 7
def bitDeviceIntegrity : UInt64 := oneBit 8
def bitAppUnrecognized : UInt64 := oneBit 9
def bitEnvironmentRisk : UInt64 := oneBit 10
def bitScreenCapture : UInt64 := oneBit 11
def bitOverlayAbuse : UInt64 := oneBit 12
def bitAccessibilityAbuse : UInt64 := oneBit 13
def bitMaliciousIME : UInt64 := oneBit 14
def bitRemoteAccess : UInt64 := oneBit 15
def bitFleetAnomaly : UInt64 := oneBit 32

def defaultWeights (bit : UInt64) : UInt32 :=
  if bit = bitRootJailbreak then 40
  else if bit = bitDebugger then 25
  else if bit = bitEmulator then 20
  else if bit = bitHooking then 35
  else if bit = bitAppTamper then 60
  else if bit = bitAttestationFail then 70
  else if bit = bitNetworkMITM then 30
  else if bit = bitAccountRisk then 20
  else if bit = bitDeviceIntegrity then 45
  else if bit = bitAppUnrecognized then 65
  else if bit = bitEnvironmentRisk then 15
  else if bit = bitScreenCapture then 30
  else if bit = bitOverlayAbuse then 35
  else if bit = bitAccessibilityAbuse then 40
  else if bit = bitMaliciousIME then 25
  else if bit = bitRemoteAccess then 45
  else if bit = bitFleetAnomaly then 50
  else 0

def wireToServer : List UInt64 :=
  [bitRootJailbreak, bitRootJailbreak, bitEmulator, bitEmulator, bitDebugger, bitHooking,
    bitAppTamper, bitAppTamper, bitNetworkMITM, bitEnvironmentRisk, bitEnvironmentRisk,
    bitNetworkMITM, bitNetworkMITM, bitAttestationFail, bitDeviceIntegrity, bitAppTamper,
    bitScreenCapture, bitOverlayAbuse, bitAccessibilityAbuse, bitMaliciousIME, bitRemoteAccess]

def fromWireLoop (wire : UInt64) : Nat → List UInt64 → UInt64 → UInt64
  | _, [], out => out
  | i, server :: rest, out =>
    fromWireLoop wire (i + 1) rest
      (if wire &&& (1 <<< UInt64.ofNat i) != 0 then out ||| server else out)

def fromWire (wire : UInt64) : UInt64 := fromWireLoop wire 0 wireToServer 0

def fuse (reported attestation : UInt64) : UInt64 := reported ||| attestation

def serverIndex (i : Fin 64) : Fin 64 :=
  ([0, 0, 2, 2, 1, 3, 4, 4, 6, 10, 10, 6, 6, 5, 8, 4, 11, 12, 13, 14, 15] : List (Fin 64)).getD i 0

def maxWireBit : Fin 64 := 20

theorem wireToServer_eq :
    wireToServer = ((List.finRange 21).map fun i => serverIndex (i.castLE (by decide))).map oneBit :=
  rfl

theorem mem_bits_fromWireLoop (wire : UInt64) (server : List (Fin 64)) (j : Fin 64) (k : Nat)
    (hk : k + server.length ≤ 64) (out : UInt64) :
    j ∈ bits (fromWireLoop wire k (server.map oneBit) out) ↔
      j ∈ bits out ∨ ∃ n, server[n]? = some j ∧ wire.toNat.testBit (k + n) = true := by
  induction server generalizing k out with
  | nil => simp [fromWireLoop]
  | cons s server ih =>
    rw [length_cons] at hk
    have hstep : j ∈ bits (if wire &&& (1 <<< UInt64.ofNat k) != 0 then out ||| oneBit s else out) ↔
        j ∈ bits out ∨ (s = j ∧ wire.toNat.testBit k = true) := by
      have htest := and_oneBit_ne_zero (w := wire) (i := ⟨k, by omega⟩)
      rw [mem_bits] at htest
      split
      · next h =>
        rw [bits_or_oneBit, Finset.mem_insert]
        have hbit : wire.toNat.testBit k = true := htest.mp h
        simp only [hbit, and_true, eq_comm, or_comm]
      · next h =>
        have hbit : ¬ wire.toNat.testBit k = true := fun hb => h (htest.mpr hb)
        simp only [hbit, and_false, or_false, Bool.false_eq_true]
    rw [map_cons, fromWireLoop, ih _ (by omega), hstep, or_assoc]
    refine or_congr_right ?_
    constructor
    · rintro (⟨rfl, hb⟩ | ⟨n, hn, hb⟩)
      · exact ⟨0, rfl, hb⟩
      · exact ⟨n + 1, hn, by rw [← hb, Nat.add_right_comm, Nat.add_assoc]⟩
    · rintro ⟨n, hn, hb⟩
      cases n with
      | zero => exact .inl ⟨Option.some.inj hn, hb⟩
      | succ n => exact .inr ⟨n, hn, by rw [← hb, Nat.add_right_comm, Nat.add_assoc]⟩

/-- **The server bits of a device bitset are those its bits up to `maxWireBit` stand for.** -/
theorem bits_fromWire (wire : UInt64) :
    bits (fromWire wire) = ((bits wire).filter (· ≤ maxWireBit)).image serverIndex := by
  ext j
  unfold fromWire
  rw [wireToServer_eq, mem_bits_fromWireLoop _ _ _ _ (by decide), Finset.mem_image]
  constructor
  · rintro (h | ⟨n, hn, hb⟩)
    · exact absurd h (Finset.notMem_empty j)
    · obtain ⟨hlt, hget⟩ := List.getElem?_eq_some_iff.mp hn
      rw [length_map, length_finRange] at hlt
      rw [getElem_map, getElem_finRange] at hget
      refine ⟨⟨n, by omega⟩, Finset.mem_filter.mpr ⟨mem_bits.mpr ?_, ?_⟩, hget⟩
      · rw [← hb, Nat.zero_add]
      · exact Fin.mk_le_of_le_val (Nat.lt_succ_iff.mp hlt)
  · rintro ⟨i, hi, rfl⟩
    obtain ⟨hb, hle⟩ := Finset.mem_filter.mp hi
    have hlt : i.val < 21 := Nat.lt_succ_of_le hle
    refine .inr ⟨i, ?_, by rw [Nat.zero_add]; exact mem_bits.mp hb⟩
    rw [getElem?_map, getElem?_eq_getElem (by rw [length_finRange]; exact hlt),
      getElem_finRange]
    rfl

/-! ## Scores -/

def maxUint32 : UInt32 := 0xffffffff

def addSat (a b : UInt32) : UInt32 := if a > maxUint32 - b then maxUint32 else a + b

def bitWeight (weights : Option (GoMap UInt32 UInt32)) (i : Fin 64) : UInt32 :=
  (weights.bind fun m => m.lookup (UInt32.ofNat i)).getD (defaultWeights (oneBit i))

def score (bitset : UInt64) (weights : Option (GoMap UInt32 UInt32)) : UInt32 :=
  (List.finRange 64).foldl (fun total i =>
    if bitset &&& oneBit i == 0 then total else addSat total (bitWeight weights i)) 0

theorem toNat_addSat (a b : UInt32) : (addSat a b).toNat = satAdd (2 ^ 32 - 1) a.toNat b.toNat := by
  have hb := b.toNat_lt
  have hsub : (maxUint32 - b).toNat = 2 ^ 32 - 1 - b.toNat :=
    UInt32.toNat_sub_of_le _ _ (UInt32.le_iff_toNat_le.mpr (Nat.le_sub_one_of_lt hb))
  unfold addSat satAdd
  by_cases h : a > maxUint32 - b
  · rw [if_pos h]
    have h' := UInt32.lt_iff_toNat_lt.mp h
    show 2 ^ 32 - 1 = _
    omega
  · rw [if_neg h, UInt32.toNat_add]
    have h' := UInt32.le_iff_toNat_le.mp (UInt32.not_lt.mp h)
    omega

theorem toNat_scoreLoop (w : UInt64) (weight : Fin 64 → UInt32) (is : List (Fin 64)) (total : UInt32) :
    (is.foldl (fun total i =>
        if w &&& oneBit i == 0 then total else addSat total (weight i)) total).toNat =
      (is.map fun i => if i ∈ bits w then (weight i).toNat else 0).foldl (satAdd (2 ^ 32 - 1))
        total.toNat := by
  induction is generalizing total with
  | nil => rfl
  | cons i is ih =>
    rw [foldl_cons, ih, map_cons, foldl_cons]
    congr 1
    have htest := and_oneBit_ne_zero (w := w) (i := i)
    by_cases hi : i ∈ bits w
    · have hne : (w &&& oneBit i == 0) = false := by simpa using htest.mpr hi
      rw [hne, if_pos hi, if_neg Bool.false_ne_true, toNat_addSat]
    · have heq : (w &&& oneBit i == 0) = true := by
        by_contra h
        exact hi (htest.mp (by simpa using h))
      have hlt := total.toNat_lt
      rw [heq, if_neg hi, if_pos rfl]
      unfold satAdd
      omega

/-- **The score is the sum of the weights, cut at the largest 32-bit number.** -/
theorem toNat_score (w : UInt64) (weights : Option (GoMap UInt32 UInt32)) :
    (score w weights).toNat =
      satSum (2 ^ 32 - 1) (bits w) fun i => (bitWeight weights i).toNat := by
  unfold score satSum
  rw [toNat_scoreLoop, UInt32.toNat_zero, foldl_satAdd _ _ _ (Nat.zero_le _), ← Fin.sum_univ_def,
    ← Finset.sum_filter, Finset.filter_mem_eq_inter, Finset.univ_inter, Nat.zero_add]

/-! ## Levels and decisions -/

def levelByName (name : String) : TrustLevel :=
  if name = "TRUSTED" ∨ name = "TRUST_LEVEL_TRUSTED" then .trusted
  else if name = "LOW_RISK" ∨ name = "TRUST_LEVEL_LOW_RISK" then .lowRisk
  else if name = "MEDIUM_RISK" ∨ name = "TRUST_LEVEL_MEDIUM_RISK" then .mediumRisk
  else if name = "HIGH_RISK" ∨ name = "TRUST_LEVEL_HIGH_RISK" then .highRisk
  else if name = "CRITICAL" ∨ name = "TRUST_LEVEL_CRITICAL" then .critical
  else .unspecified

def defaultThresholds : List (UInt32 × TrustLevel) :=
  [(130, .critical), (90, .highRisk), (50, .mediumRisk), (20, .lowRisk)]

def levelLoop (score : UInt32) : TrustLevel → List (String × UInt32) → TrustLevel
  | best, [] => best
  | best, (name, min) :: rest =>
    let lvl := levelByName name
    if lvl = .unspecified then levelLoop score best rest
    else if score ≥ min ∧ lvl.toNat > best.toNat then levelLoop score lvl rest
    else levelLoop score best rest

def level (score : UInt32) (thresholds : Option (GoMap String UInt32)) : TrustLevel :=
  let custom := (thresholds.map GoMap.pairs).getD []
  if custom.length > 0 then levelLoop score .trusted custom
  else ((defaultThresholds.find? fun t => score ≥ t.1).map Prod.snd).getD .trusted

def decision (level : TrustLevel) (mode : EnforcementMode) : Decision :=
  if mode = .observe then .allow
  else
    match level with
    | .critical => .deny
    | .highRisk => if mode = .block then .deny else .stepUp
    | .mediumRisk => .stepUp
    | _ => .allow

def nextChecks : TrustLevel → List EventType
  | .trusted | .lowRisk => []
  | .mediumRisk => [.rootRisk, .debugger]
  | _ => [.rootRisk, .debugger, .hookingDetected, .appIntegrityFail]

def Reaches (thresholds : GoMap String UInt32) (n x : Nat) : Prop :=
  ∃ name min, thresholds.lookup name = some min ∧ n ≤ (levelByName name).toNat ∧ min.toNat ≤ x

variable {n : Nat}

theorem le_levelLoop_iff (score : UInt32) (entries : List (String × UInt32)) (best : TrustLevel)
    (hn : 0 < n) :
    n ≤ (levelLoop score best entries).toNat ↔ n ≤ best.toNat ∨
      ∃ e ∈ entries, n ≤ (levelByName e.1).toNat ∧ e.2 ≤ score := by
  induction entries generalizing best with
  | nil => simp [levelLoop]
  | cons e entries ih =>
    obtain ⟨name, min⟩ := e
    rw [levelLoop, exists_mem_cons_iff]
    split
    · next h =>
      -- An unknown name has level zero.
      have hzero : (levelByName name).toNat = 0 := by rw [h]; rfl
      rw [ih, hzero]
      simp only [Nat.le_zero, Nat.ne_of_gt hn, false_and, false_or]
    · split
      · next h =>
        rw [ih]
        obtain ⟨hmin, hlt⟩ := h
        constructor
        · rintro (hle | hrest)
          · exact .inr (.inl ⟨hle, hmin⟩)
          · exact .inr (.inr hrest)
        · rintro (hle | ⟨hle, -⟩ | hrest)
          · exact .inl (by omega)
          · exact .inl hle
          · exact .inr hrest
      · next h =>
        rw [ih]
        constructor
        · rintro (hle | hrest)
          · exact .inl hle
          · exact .inr (.inr hrest)
        · rintro (hle | ⟨hle, hmin⟩ | hrest)
          · exact .inl hle
          · have hbest : ¬ (levelByName name).toNat > best.toNat := fun hgt => h ⟨hmin, hgt⟩
            exact .inl (hle.trans (Nat.not_lt.mp hbest))
          · exact .inr hrest

/-- **A level is reached exactly if its threshold, or one of a worse level, is.** -/
theorem le_level_iff (score : UInt32) {thresholds : GoMap String UInt32}
    (hne : thresholds.entries ≠ []) (hn : 1 < n) :
    n ≤ (level score (some thresholds)).toNat ↔ Reaches thresholds n score.toNat := by
  have hlen : 0 < thresholds.pairs.length := by
    rw [GoMap.pairs, length_map]
    exact length_pos_iff.mpr hne
  show n ≤ (if thresholds.pairs.length > 0 then levelLoop score .trusted thresholds.pairs
    else _).toNat ↔ _
  rw [if_pos hlen, le_levelLoop_iff _ _ _ (by omega)]
  constructor
  · rintro (h | ⟨⟨name, min⟩, hmem, hle, hmin⟩)
    · exact absurd h (Nat.not_le.mpr hn)
    · exact ⟨name, min, GoMap.mem_pairs.mp hmem, hle, hmin⟩
  · rintro ⟨name, min, hmem, hle, hmin⟩
    exact .inr ⟨(name, min), GoMap.mem_pairs.mpr hmem, hle, hmin⟩

def thresholdList (thresholds : Option (GoMap String UInt32)) : List (UInt32 × TrustLevel) :=
  let custom := (thresholds.map GoMap.pairs).getD []
  if custom.length > 0 then custom.map fun e => (e.2, levelByName e.1) else defaultThresholds

theorem le_defaultLevel_iff (score : UInt32) (hn : 1 < n) :
    n ≤ (((defaultThresholds.find? fun t => score ≥ t.1).map Prod.snd).getD .trusted).toNat ↔
      ∃ t ∈ defaultThresholds, n ≤ t.2.toNat ∧ t.1 ≤ score := by
  constructor
  · intro h
    cases hfind : defaultThresholds.find? fun t => score ≥ t.1 with
    | none =>
      rw [hfind] at h
      exact absurd h (Nat.not_le.mpr hn)
    | some t =>
      rw [hfind] at h
      have hscore := find?_some hfind
      exact ⟨t, mem_of_find?_eq_some hfind, h, of_decide_eq_true hscore⟩
  · rintro ⟨t, hmem, hle, hscore⟩
    -- The list goes from the worst level down, so the first hit is at least as bad as `t`.
    have hsorted : defaultThresholds.Pairwise fun a b => b.2.toNat ≤ a.2.toNat := by decide
    have hfirst : ∀ ts : List (UInt32 × TrustLevel), ts.Pairwise (fun a b => b.2.toNat ≤ a.2.toNat) →
        t ∈ ts → t.2.toNat ≤ (((ts.find? fun t => score ≥ t.1).map Prod.snd).getD .trusted).toNat := by
      intro ts hts ht
      induction ts with
      | nil => cases ht
      | cons t₀ ts ih =>
        obtain ⟨hhead, htail⟩ := pairwise_cons.mp hts
        rw [find?_cons]
        by_cases h₀ : score ≥ t₀.1
        · rw [decide_eq_true h₀]
          rcases mem_cons.mp ht with rfl | ht
          · exact Nat.le_refl _
          · exact hhead t ht
        · rw [decide_eq_false h₀]
          rcases mem_cons.mp ht with rfl | ht
          · exact absurd hscore h₀
          · exact ih htail ht
    exact hle.trans (hfirst _ hsorted hmem)

/-- **A level is reached if its threshold, or one of a worse level, is**, the default ones included. -/
theorem le_level_iff_thresholdList (score : UInt32) (thresholds : Option (GoMap String UInt32))
    (hn : 1 < n) :
    n ≤ (level score thresholds).toNat ↔
      ∃ t ∈ thresholdList thresholds, n ≤ t.2.toNat ∧ t.1 ≤ score := by
  rw [level, thresholdList]
  split
  · rw [le_levelLoop_iff _ _ _ (by omega)]
    constructor
    · rintro (h | ⟨e, he, hle, hmin⟩)
      · exact absurd h (Nat.not_le.mpr hn)
      · exact ⟨_, mem_map_of_mem he, hle, hmin⟩
    · rintro ⟨t, ht, hle, hmin⟩
      obtain ⟨e, he, rfl⟩ := mem_map.mp ht
      exact .inr ⟨e, he, hle, hmin⟩
  · exact le_defaultLevel_iff score hn

def denyFrom (mode : EnforcementMode) : Nat := if mode = .block then 4 else 5

variable {mode : EnforcementMode}

theorem decision_eq_allow (hm : mode ≠ .observe) (l : TrustLevel) :
    decision l mode = .allow ↔ ¬ 3 ≤ l.toNat := by
  unfold decision
  rw [if_neg hm]
  cases l <;> simp only [TrustLevel.toNat] <;> (try split) <;> simp

theorem decision_eq_deny (hm : mode ≠ .observe) (l : TrustLevel) :
    decision l mode = .deny ↔ denyFrom mode ≤ l.toNat := by
  unfold decision denyFrom
  rw [if_neg hm]
  cases l <;> simp only [TrustLevel.toNat] <;> split <;> simp

theorem decision_eq_iff (hm : mode ≠ .observe) (l l' : TrustLevel) :
    decision l mode = decision l' mode ↔
      (3 ≤ l.toNat ↔ 3 ≤ l'.toNat) ∧ (denyFrom mode ≤ l.toNat ↔ denyFrom mode ≤ l'.toNat) := by
  constructor
  · intro h
    have hallow := decision_eq_allow hm l
    have hdeny := decision_eq_deny hm l
    rw [h] at hallow hdeny
    constructor
    · rw [← not_iff_not, ← hallow, decision_eq_allow hm]
    · rw [← hdeny, decision_eq_deny hm]
  · rintro ⟨hstep, hdeny⟩
    unfold decision
    unfold denyFrom at hdeny
    cases l <;> cases l' <;> simp_all [TrustLevel.toNat] <;> split at hdeny <;> simp_all

theorem decision_eq_deny_iff (l : TrustLevel) (mode : EnforcementMode) :
    decision l mode = .deny ↔ mode ≠ .observe ∧ denyFrom mode ≤ l.toNat := by
  by_cases hm : mode = .observe
  · simp [decision, hm]
  · rw [decision_eq_deny hm, and_iff_right hm]

theorem decision_ne_allow_iff (l : TrustLevel) (mode : EnforcementMode) :
    decision l mode ≠ .allow ↔ mode ≠ .observe ∧ 3 ≤ l.toNat := by
  by_cases hm : mode = .observe
  · simp [decision, hm]
  · rw [Ne, decision_eq_allow hm, not_not, and_iff_right hm]

theorem decision_ne_unspecified (l : TrustLevel) (mode : EnforcementMode) :
    decision l mode ≠ .unspecified := by
  unfold decision
  split
  · simp
  · cases l <;> simp only <;> (try split) <;> simp

theorem decision_eq_decision_iff (l l' : TrustLevel) (mode mode' : EnforcementMode) :
    decision l mode = decision l' mode' ↔
      (decision l mode = .deny ↔ decision l' mode' = .deny) ∧
        (decision l mode ≠ .allow ↔ decision l' mode' ≠ .allow) := by
  have h := decision_ne_unspecified l mode
  have h' := decision_ne_unspecified l' mode'
  generalize decision l mode = d at h
  generalize decision l' mode' = d' at h'
  cases d <;> cases d' <;> simp at h h' ⊢

end Kseal.Risk
