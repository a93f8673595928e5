import Kseal.Device.Policy
import Kseal.Server.PolicyDoc
import Kseal.Server.Risk

/-!
# Device and server evaluate the same policy

The device looks a weight up under its own number of the bit, the server under the number of the
server bit, and counts bits that stand for the same one once (`evaluation_agrees_iff`).
-/

namespace Kseal.Contract

open Infra Wire List Option Risk

def deviceDecision (parse : String → Option Json) (sha256 : Bytes → Bytes) (p : Policy)
    (w : UInt64) : Decision :=
  Device.coreDecision (some (.new (Config.buildPolicyConfig parse sha256 p))) w

def serverDecision (parse : String → Option Json) (p : Policy) (w : UInt64) : Decision :=
  let score := score (fromWire w) (Trust.parseWeights parse (some p))
  let level := level score (Trust.parseThresholds parse (some p))
  decision level p.enforcementMode

/--
A policy whose documents are explicit: a weight for each of the 64 bits, and thresholds, none of
them under a name that only the server knows.
-/
structure Explicit (parse : String → Option Json) (p : Policy)
    (weights thresholds : GoMap String UInt32) : Prop where
  hasWeights : HasWeights parse p.rules weights
  everyBit : ∀ i : Fin 64, (weights.lookup i.val.repr).isSome = true
  hasThresholds : HasThresholds parse p.riskThresholds thresholds
  nonempty : thresholds.entries ≠ []
  shortNames : ∀ name ∈ thresholds, levelByName name ≠ .unspecified →
    (name, levelByName name) ∈ Device.thresholdLevels
  noModules : p.modulesEnabled = []

def deviceWeight (weights : GoMap String UInt32) (i : Fin 64) : Nat :=
  ((weights.lastRead scanIndex (UInt32.ofNat i)).getD 0).toNat

def serverWeight (weights : GoMap String UInt32) (i : Fin 64) : Nat :=
  ((weights.lastRead parseIndex (UInt32.ofNat i)).getD 0).toNat

def deviceSum (weights : GoMap String UInt32) (w : UInt64) : Nat :=
  satSum (2 ^ 32 - 1) (bits w) (deviceWeight weights)

def serverSum (weights : GoMap String UInt32) (w : UInt64) : Nat :=
  satSum (2 ^ 32 - 1) (((bits w).filter (· ≤ maxWireBit)).image serverIndex)
    (serverWeight weights)

/--
Two sums fall on the same side of the thresholds that matter in a mode. A device that does not
know the mode only observes.
-/
def SameSide (thresholds : GoMap String UInt32) (mode : EnforcementMode) (x y : Nat) : Prop :=
  match mode with
  | .observe => True
  | .stepUp | .block =>
    (Reaches thresholds 3 x ↔ Reaches thresholds 3 y) ∧
      (Reaches thresholds (denyFrom mode) x ↔
        Reaches thresholds (denyFrom mode) y)
  | .unspecified | .unrecognized _ => ¬ Reaches thresholds 3 y

/-! ## Scores and levels -/

theorem parseIndex_bit (i : Fin 64) : parseIndex i.val.repr = some (UInt32.ofNat i) := by
  have hlt : i.val < 2 ^ 32 := by omega
  have hi : (UInt32.ofNat i.val).toNat = i.val := UInt32.toNat_ofNat_of_lt' hlt
  have hread := parseIndex_repr (UInt32.ofNat i.val)
  rwa [hi] at hread

theorem decision_eq_iff_sameSide {thresholds : GoMap String UInt32} {l l' : TrustLevel} {x y : Nat}
    (hl : ∀ n, 1 < n → (n ≤ l.toNat ↔ Reaches thresholds n x))
    (hl' : ∀ n, 1 < n → (n ≤ l'.toNat ↔ Reaches thresholds n y)) (mode : EnforcementMode) :
    Device.decision l (Device.knownMode mode) = decision l' mode ↔
      SameSide thresholds mode x y := by
  have hknown : ∀ m : EnforcementMode, m ≠ .observe →
      (decision l m = decision l' m ↔
        (Reaches thresholds 3 x ↔ Reaches thresholds 3 y) ∧
          (Reaches thresholds (denyFrom m) x ↔
            Reaches thresholds (denyFrom m) y)) := by
    intro m hm
    have hdeny : 1 < denyFrom m := by unfold denyFrom; split <;> decide
    rw [decision_eq_iff hm, hl 3 (by decide), hl' 3 (by decide), hl _ hdeny, hl' _ hdeny]
  -- In a mode it does not know, the device allows everything.
  have hunknown : ∀ m : EnforcementMode, m ≠ .observe →
      (Decision.allow = decision l' m ↔ ¬ Reaches thresholds 3 y) := by
    intro m hm
    rw [eq_comm, decision_eq_allow hm, hl' 3 (by decide)]
  cases mode with
  | observe => exact iff_of_true rfl trivial
  | unspecified => exact hunknown _ (by simp)
  | unrecognized => exact hunknown _ (by simp)
  | stepUp => exact hknown .stepUp (by simp)
  | block => exact hknown .block (by simp)

section explicit

variable {parse : String → Option Json} {p : Policy} {weights thresholds : GoMap String UInt32}
  (hp : Explicit parse p weights thresholds)

include hp

theorem Explicit.parseIndex_isSome (i : Fin 64) :
    (weights.lastRead parseIndex (UInt32.ofNat i)).isSome = true := by
  obtain ⟨v, hv⟩ := isSome_iff_exists.mp (hp.everyBit i)
  exact GoMap.lastRead_isSome hv (parseIndex_bit i)

theorem Explicit.scanIndex_isSome (i : Fin 64) :
    (weights.lastRead scanIndex (UInt32.ofNat i)).isSome = true := by
  obtain ⟨v, hv⟩ := isSome_iff_exists.mp (hp.everyBit i)
  exact GoMap.lastRead_isSome hv (scanIndex_of_parseIndex (parseIndex_bit i))

theorem Explicit.toNat_deviceScore (sha256 : Bytes → Bytes) (w : UInt64) :
    (Device.weightedScore
        ((Device.Policy.new (Config.buildPolicyConfig parse sha256 p)).filterSignals w)
        (Config.buildPolicyConfig parse sha256 p).signalWeights).toNat = deviceSum weights w := by
  rw [Device.filterSignals_of_no_modules hp.noModules, Device.toNat_weightedScore,
    signalWeights_buildPolicyConfig _ hp.hasWeights]
  congr 1
  funext i
  obtain ⟨v, hv⟩ := isSome_iff_exists.mp (hp.scanIndex_isSome i)
  unfold Device.signalWeight deviceWeight
  rw [GoMap.lookup_rekey, hv]
  rfl

theorem Explicit.toNat_serverScore (w : UInt64) :
    (score (fromWire w) (Trust.parseWeights parse (some p))).toNat =
      serverSum weights w := by
  rw [toNat_score, bits_fromWire, parseWeights_eq hp.hasWeights]
  congr 1
  funext i
  obtain ⟨v, hv⟩ := isSome_iff_exists.mp (hp.parseIndex_isSome i)
  unfold bitWeight serverWeight
  rw [bind_some, GoMap.lookup_rekey, hv]
  rfl

theorem Explicit.le_serverLevel_iff (score : UInt32) {n : Nat} (hn : 1 < n) :
    n ≤ (level score (Trust.parseThresholds parse (some p))).toNat ↔
      Reaches thresholds n score.toNat := by
  rw [parseThresholds_eq hp.hasThresholds]
  exact le_level_iff score hp.nonempty hn

theorem Explicit.le_deviceLevel_iff (sha256 : Bytes → Bytes) (score : UInt32) {n : Nat}
    (hn : 1 < n) :
    n ≤ ((Device.Policy.new (Config.buildPolicyConfig parse sha256 p)).trustLevelForScore
        score).toNat ↔ Reaches thresholds n score.toNat := by
  rw [Device.le_trustLevelForScore_iff _ _ hn]
  show (∃ e ∈ Device.thresholdLevels, ∃ min,
    (Config.buildPolicyConfig parse sha256 p).riskThresholds.lookup e.1 = some min ∧ _) ↔ _
  rw [riskThresholds_buildPolicyConfig _ hp.hasThresholds]
  have hnames : ∀ e ∈ Device.thresholdLevels, levelByName e.1 = e.2 := by decide
  constructor
  · rintro ⟨e, he, min, hlook, hle, hmin⟩
    exact ⟨e.1, min, hlook, by rw [hnames e he]; exact hle, hmin⟩
  · rintro ⟨name, min, hlook, hle, hmin⟩
    have hknown : levelByName name ≠ .unspecified := by
      intro h
      rw [h] at hle
      exact absurd hle (Nat.not_le.mpr (Nat.zero_lt_of_lt hn))
    have hmem : name ∈ thresholds :=
      AList.lookup_isSome.mp (isSome_iff_exists.mpr ⟨min, hlook⟩)
    exact ⟨_, hp.shortNames name hmem hknown, min, hlook, hle, hmin⟩

/-- **When the two decisions on a bitset are the same.** -/
theorem deviceDecision_eq_iff (sha256 : Bytes → Bytes) (w : UInt64) :
    deviceDecision parse sha256 p w = serverDecision parse p w ↔
      SameSide thresholds p.enforcementMode (deviceSum weights w) (serverSum weights w) := by
  rw [← hp.toNat_deviceScore sha256 w, ← hp.toNat_serverScore w]
  exact decision_eq_iff_sameSide (fun n hn => hp.le_deviceLevel_iff sha256 _ hn)
    (fun n hn => hp.le_serverLevel_iff _ hn) p.enforcementMode

theorem Explicit.deviceDecision_eq_deny (sha256 : Bytes → Bytes) (w : UInt64)
    (hm : p.enforcementMode = .block) :
    deviceDecision parse sha256 p w = .deny ↔ Reaches thresholds 4 (deviceSum weights w) := by
  rw [← hp.toNat_deviceScore sha256 w, ← hp.le_deviceLevel_iff sha256 _ (by decide)]
  show decision _ (Device.knownMode p.enforcementMode) = .deny ↔ _
  rw [hm]
  exact decision_eq_deny (by simp : EnforcementMode.block ≠ .observe) _

theorem Explicit.serverDecision_eq_allow (w : UInt64) (hm : p.enforcementMode = .block) :
    serverDecision parse p w = .allow ↔ ¬ Reaches thresholds 3 (serverSum weights w) := by
  rw [← hp.toNat_serverScore w, ← hp.le_serverLevel_iff _ (by decide)]
  unfold serverDecision
  rw [hm]
  exact decision_eq_allow (by simp) _

end explicit

/-! ## All policies with the same weights -/

def criticalText (digits : String) : String := "\x7b\"CRITICAL\":" ++ digits ++ "\x7d"

def Declared (mode : EnforcementMode) : Prop := mode = .observe ∨ mode = .stepUp ∨ mode = .block

section uniform

variable {parse : String → Option Json} {weights : GoMap String UInt32}
  (hparse : ∀ n : UInt32, parse (criticalText n.toNat.repr) =
    some (.obj [("CRITICAL", .num n.toNat.repr)]))

theorem deviceWeight_le (i : Fin 64) : deviceWeight weights i ≤ 2 ^ 32 - 1 :=
  Nat.le_sub_one_of_lt (UInt32.toNat_lt _)

theorem serverWeight_le (i : Fin 64) : serverWeight weights i ≤ 2 ^ 32 - 1 :=
  Nat.le_sub_one_of_lt (UInt32.toNat_lt _)

theorem criticalText_ne_empty (digits : String) : criticalText digits ≠ "" := by
  intro h
  have := congrArg String.toList h
  simp [criticalText] at this

include hparse in
theorem hasThresholds_critical (n : UInt32) :
    HasThresholds parse (criticalText n.toNat.repr) (AList.singleton "CRITICAL" n) := by
  refine ⟨criticalText_ne_empty _, ?_⟩
  have hnum : decodeUint32 (.num n.toNat.repr) 0 = ⟨n, true⟩ := by
    unfold decodeUint32 decodeUint
    simp only [parseUint_repr n.toNat_lt, UInt32.ofNat_toNat]
  unfold unmarshal
  rw [hparse]
  show (⟨some ((∅ : GoMap String UInt32).insert "CRITICAL" (decodeUint32 _ 0).value),
    true && (decodeUint32 _ 0).ok⟩ : Decoded _) = _
  rw [hnum]
  rfl

theorem reaches_critical {n : UInt32} {k x : Nat} (hk : k ≤ 5) :
    Reaches (AList.singleton "CRITICAL" n) k x ↔ n.toNat ≤ x := by
  constructor
  · rintro ⟨name, min, hlook, -, hmin⟩
    rw [← mem_def, AList.mem_lookup_iff, AList.singleton_entries,
      mem_singleton] at hlook
    cases hlook
    exact hmin
  · intro h
    refine ⟨"CRITICAL", n, ?_, hk, h⟩
    rw [← mem_def, AList.mem_lookup_iff, AList.singleton_entries, mem_singleton]

def criticalPolicy (rules : String) (n : UInt32) : Policy where
  id := "p"
  tenantId := "t"
  appId := "a"
  name := "n"
  version := 1
  enforcementMode := .block
  rules := rules
  riskThresholds := criticalText n.toNat.repr
  modulesEnabled := []
  isActive := true
  createdAt := 0
  updatedAt := 0

include hparse in
theorem explicit_criticalPolicy {rules : String} (hrules : HasWeights parse rules weights)
    (hevery : ∀ i : Fin 64, (weights.lookup i.val.repr).isSome = true) (n : UInt32) :
    Explicit parse (criticalPolicy rules n) weights (AList.singleton "CRITICAL" n) where
  hasWeights := hrules
  everyBit := hevery
  hasThresholds := hasThresholds_critical hparse n
  nonempty := by simp
  shortNames := by
    intro name hname _
    rw [AList.mem_keys, AList.keys_singleton, mem_singleton] at hname
    subst hname
    decide
  noModules := rfl

theorem sums_eq_iff : (∀ w, deviceSum weights w = serverSum weights w) ↔
    KeepsWeights (2 ^ 32 - 1) (deviceWeight weights) (· ≤ maxWireBit) serverIndex
      (serverWeight weights) := by
  rw [← satSum_image_iff deviceWeight_le serverWeight_le]
  constructor
  · intro h s
    obtain ⟨w, rfl⟩ := exists_bits s
    exact h w
  · exact fun h w => h (bits w)

end uniform

/-! ## A rules text for every table of weights -/

section table

variable (W : Fin 64 → UInt32)

def tableMembers : List (String × Json) :=
  (List.finRange 64).map fun i => (i.val.repr, .num (W i).toNat.repr)

def tableMap : GoMap String UInt32 :=
  (List.finRange 64).foldl (fun m i => m.insert i.val.repr (W i)) ∅

def tableText : String :=
  "\x7b\"signal_weights\":\x7b" ++ ",".intercalate ((List.finRange 64).map fun i =>
    "\"" ++ i.val.repr ++ "\":" ++ (W i).toNat.repr) ++ "\x7d\x7d"

def tableParse (text : String) : Option Json :=
  if text = tableText W then some (.obj [("signal_weights", .obj (tableMembers W))])
  else
    let digits := String.ofList (text.toList.drop 12).dropLast
    if text = criticalText digits then some (.obj [("CRITICAL", .num digits)]) else none

variable {W}

theorem decodeMembers_table (is : List (Fin 64)) (m : GoMap String UInt32) :
    decodeMembers (setEntry decodeUint32 0)
        (is.map fun i => (i.val.repr, .num (W i).toNat.repr)) ⟨m, true⟩ =
      ⟨is.foldl (fun m i => m.insert i.val.repr (W i)) m, true⟩ := by
  induction is generalizing m with
  | nil => rfl
  | cons i is ih =>
    have hnum : decodeUint32 (.num (W i).toNat.repr) 0 = ⟨W i, true⟩ := by
      unfold decodeUint32 decodeUint
      simp only [parseUint_repr (W i).toNat_lt, UInt32.ofNat_toNat]
    rw [map_cons, decodeMembers, foldl_cons, ← ih]
    simp only [setEntry, hnum, Bool.and_true]

theorem tableText_ne_empty : tableText W ≠ "" := by
  unfold tableText
  intro h
  have := congrArg String.toList h
  simp at this

theorem hasWeights_table : HasWeights (tableParse W) (tableText W) (tableMap W) := by
  refine ⟨tableText_ne_empty, ?_⟩
  have hfield : matchesField "signal_weights" "signal_weights" = true := by
    simp [matchesField]
  unfold unmarshal tableParse
  rw [if_pos rfl]
  show decodeMembers Trust.setWrapper [("signal_weights", .obj (tableMembers W))] ⟨none, true⟩ = _
  simp only [decodeMembers, Trust.setWrapper, decodeMap, tableMembers,
    decodeMembers_table]
  rfl

theorem tableParse_critical (digits : String) :
    tableParse W (criticalText digits) = some (.obj [("CRITICAL", .num digits)]) := by
  have hne : criticalText digits ≠ tableText W := by
    unfold tableText
    intro h
    have := congrArg (fun s : String => s.toList[2]?) h
    simp [criticalText] at this
  have hdigits : String.ofList ((criticalText digits).toList.drop 12).dropLast = digits := by
    simp [criticalText]
  unfold tableParse
  rw [if_neg hne]
  simp only [hdigits, if_true]

theorem lookup_tableLoop (is : List (Fin 64)) (m : GoMap String UInt32) {key : String} {v : UInt32}
    (h : (is.foldl (fun m i => m.insert i.val.repr (W i)) m).lookup key = some v) :
    (∃ i : Fin 64, key = i.val.repr ∧ v = W i) ∨ m.lookup key = some v := by
  induction is generalizing m with
  | nil => exact .inr h
  | cons i is ih =>
    rcases ih _ h with hi | hm
    · exact .inl hi
    · by_cases hkey : key = i.val.repr
      · subst hkey
        rw [AList.lookup_insert] at hm
        exact .inl ⟨i, rfl, (some.inj hm).symm⟩
      · rw [AList.lookup_insert_ne hkey] at hm
        exact .inr hm

theorem mem_tableLoop (is : List (Fin 64)) (m : GoMap String UInt32) {key : String}
    (h : key ∈ m ∨ ∃ i ∈ is, key = i.val.repr) :
    key ∈ is.foldl (fun m i => m.insert i.val.repr (W i)) m := by
  induction is generalizing m with
  | nil => exact h.resolve_right (by simp)
  | cons i is ih =>
    apply ih
    rw [AList.mem_insert]
    rcases h with hm | ⟨j, hj, rfl⟩
    · exact .inl (.inr hm)
    · rcases mem_cons.mp hj with rfl | hj
      · exact .inl (.inl rfl)
      · exact .inr ⟨j, hj, rfl⟩

theorem everyBit_table (i : Fin 64) : ((tableMap W).lookup i.val.repr).isSome = true :=
  AList.lookup_isSome.mpr (mem_tableLoop _ _ (.inr ⟨i, mem_finRange i, rfl⟩))

theorem lastRead_table {read : String → Option UInt32}
    (hread : ∀ j : Fin 64, read j.val.repr = some (UInt32.ofNat j)) (i : Fin 64) :
    (tableMap W).lastRead read (UInt32.ofNat i) = some (W i) := by
  obtain ⟨v₀, hv₀⟩ := isSome_iff_exists.mp (everyBit_table (W := W) i)
  obtain ⟨v, hv⟩ := isSome_iff_exists.mp (GoMap.lastRead_isSome hv₀ (hread i))
  obtain ⟨key, hlook, hkey⟩ := GoMap.exists_of_lastRead hv
  rcases lookup_tableLoop _ _ hlook with ⟨j, rfl, rfl⟩ | hempty
  · have hij : UInt32.ofNat j = UInt32.ofNat i := some.inj ((hread j).symm.trans hkey)
    have hval := congrArg UInt32.toNat hij
    rw [UInt32.toNat_ofNat_of_lt' (Nat.lt_trans j.isLt (by decide)),
      UInt32.toNat_ofNat_of_lt' (Nat.lt_trans i.isLt (by decide))] at hval
    rw [hv, Fin.ext hval]
  · cases hempty

theorem deviceWeight_table (i : Fin 64) : deviceWeight (tableMap W) i = (W i).toNat := by
  unfold deviceWeight
  rw [lastRead_table fun j => scanIndex_of_parseIndex (parseIndex_bit j)]
  rfl

theorem serverWeight_table (i : Fin 64) : serverWeight (tableMap W) i = (W i).toNat := by
  unfold serverWeight
  rw [lastRead_table parseIndex_bit]
  rfl

end table

section instances

variable (W : Fin 64 → UInt32) (n : UInt32)

def tablePolicy : Policy := criticalPolicy (tableText W) n

theorem explicit_tablePolicy : Explicit (tableParse W) (tablePolicy W n) (tableMap W)
    (AList.singleton "CRITICAL" n) :=
  explicit_criticalPolicy (fun _ => tableParse_critical _) hasWeights_table everyBit_table n

end instances

def fatalTable (i : Fin 64) : UInt32 :=
  if i ∈ ([2, 3, 5, 13, 18] : List (Fin 64)) then 0xffffffff else 0

theorem keepsWeights_fatalTable :
    KeepsWeights (2 ^ 32 - 1) (deviceWeight (tableMap fatalTable)) (· ≤ maxWireBit)
      serverIndex (serverWeight (tableMap fatalTable)) where
  dropped := by
    intro i hi
    rw [deviceWeight_table]
    revert i
    decide
  kept := by
    intro i hi
    rw [deviceWeight_table, serverWeight_table]
    revert i
    decide
  shared := by
    intro i j _ _ _ _
    rw [serverWeight_table]
    unfold fatalTable
    split
    · exact .inr rfl
    · exact .inl rfl

def flatTable (_ : Fin 64) : UInt32 := 30

theorem deviceSum_flatTable : deviceSum (tableMap flatTable) 0x3 = 60 := by
  have hbits : bits 0x3 = {0, 1} := by decide
  unfold deviceSum satSum
  rw [hbits, Finset.sum_pair (by decide), deviceWeight_table, deviceWeight_table]
  rfl

theorem serverSum_flatTable : serverSum (tableMap flatTable) 0x3 = 30 := by
  have hbits : ((bits 0x3).filter (· ≤ maxWireBit)).image serverIndex = {0} := by decide
  unfold serverSum satSum
  rw [hbits, Finset.sum_singleton, serverWeight_table]
  rfl

end Kseal.Contract
