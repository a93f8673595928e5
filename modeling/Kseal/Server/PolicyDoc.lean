import Kseal.Server.Registry

/-!
# Policy documents

The config service reads the rules and thresholds of a policy for the device, the trust service to
score. Only the latter discards a text with an error in it, and keys of the weights are read by
`fmt.Sscanf` in one and by `strconv.ParseUint` in the other. `parse` is the JSON reader of both.
-/

namespace Kseal

open Infra Wire

def parseIndex (key : String) : Option UInt32 := (parseUint 32 key).map UInt32.ofNat

def scanIndex (key : String) : Option UInt32 := (sscanUint 32 key).map UInt32.ofNat

theorem scanIndex_of_parseIndex {key : String} {i : UInt32} (h : parseIndex key = some i) :
    scanIndex key = some i := by
  obtain ⟨n, hn, rfl⟩ := Option.map_eq_some_iff.mp h
  exact Option.map_eq_some_iff.mpr ⟨n, sscanUint_of_parseUint hn, rfl⟩

theorem parseIndex_repr (i : UInt32) : parseIndex i.toNat.repr = some i := by
  unfold parseIndex
  rw [parseUint_repr i.toNat_lt, Option.map_some, UInt32.ofNat_toNat]

abbrev decodeWeights : Json → Option (GoMap String UInt32) → Decoded (Option (GoMap String UInt32)) :=
  decodeMap decodeUint32 0

/-! ## The config service (`data-plane/config/service.go`) -/

namespace Config

structure RuleDoc where
  id : String
  riskMask : UInt64
  minScore : UInt32
  action : String
  description : String

def RuleDoc.zero : RuleDoc := ⟨"", 0, 0, "", ""⟩

structure PolicyDoc where
  rules : Option (List RuleDoc)
  signalWeights : Option (GoMap String UInt32)
  reattestIntervalSecs : UInt32

def PolicyDoc.zero : PolicyDoc := ⟨none, none, 0⟩

def setRuleDoc (key : String) (j : Json) (r : RuleDoc) : Decoded RuleDoc :=
  if matchesField key "id" then
    let d := decodeString j r.id
    ⟨{ r with id := d.value }, d.ok⟩
  else if matchesField key "risk_mask" then
    let d := decodeUint64 j r.riskMask
    ⟨{ r with riskMask := d.value }, d.ok⟩
  else if matchesField key "min_score" then
    let d := decodeUint32 j r.minScore
    ⟨{ r with minScore := d.value }, d.ok⟩
  else if matchesField key "action" then
    let d := decodeString j r.action
    ⟨{ r with action := d.value }, d.ok⟩
  else if matchesField key "description" then
    let d := decodeString j r.description
    ⟨{ r with description := d.value }, d.ok⟩
  else ⟨r, true⟩

def decodeRules : Json → Option (List RuleDoc) → Decoded (Option (List RuleDoc)) :=
  decodeSlice (decodeStruct setRuleDoc) .zero

def setPolicyDoc (key : String) (j : Json) (doc : PolicyDoc) : Decoded PolicyDoc :=
  if matchesField key "signal_weights" then
    let d := decodeWeights j doc.signalWeights
    ⟨{ doc with signalWeights := d.value }, d.ok⟩
  else if matchesField key "rules" then
    let d := decodeRules j doc.rules
    ⟨{ doc with rules := d.value }, d.ok⟩
  else if matchesField key "reattest_interval_secs" then
    let d := decodeUint32 j doc.reattestIntervalSecs
    ⟨{ doc with reattestIntervalSecs := d.value }, d.ok⟩
  else ⟨doc, true⟩

def parsePolicyDoc (parse : String → Option Json) (rules : String) : PolicyDoc :=
  if rules = "" then .zero
  else
    let d := unmarshal parse (decodeStruct setPolicyDoc) rules .zero
    if d.ok = true ∧ (d.value.rules.isSome = true ∨ d.value.signalWeights.isSome = true ∨
        d.value.reattestIntervalSecs ≠ 0) then d.value
    else
      let arr := unmarshal parse decodeRules rules none
      if arr.ok then { d.value with rules := arr.value } else d.value

def parseMode (s : String) (fallback : EnforcementMode) : EnforcementMode :=
  if s = "observe" ∨ s = "OBSERVE" ∨ s = "ENFORCEMENT_MODE_OBSERVE" then .observe
  else if s = "step_up" ∨ s = "STEP_UP" ∨ s = "ENFORCEMENT_MODE_STEP_UP" then .stepUp
  else if s = "block" ∨ s = "BLOCK" ∨ s = "ENFORCEMENT_MODE_BLOCK" then .block
  else fallback

def thresholdsOf (parse : String → Option Json) (text : String) : GoMap String UInt32 :=
  if text ≠ "" then (unmarshal parse decodeWeights text (some ∅)).value.getD ∅ else ∅

def buildPolicyConfig (parse : String → Option Json) (sha256 : Bytes → Bytes) (p : Policy) :
    PolicyConfig :=
  let doc := parsePolicyDoc parse p.rules
  { rules := (doc.rules.getD []).map fun r =>
      { id := r.id
        riskMask := r.riskMask
        minScore := r.minScore
        action := parseMode r.action p.enforcementMode
        description := r.description }
    riskThresholds := thresholdsOf parse p.riskThresholds
    defaultMode := p.enforcementMode
    modulesEnabled := p.modulesEnabled
    signalWeights := (doc.signalWeights.getD ∅).rekey scanIndex
    policyHash :=
      Registry.hashPolicy sha256 p.appId p.enforcementMode p.rules p.riskThresholds p.modulesEnabled
    reattestIntervalSecs := doc.reattestIntervalSecs }

end Config

/-! ## The trust service (`data-plane/trust/service.go`) -/

namespace Trust

def parseThresholds (parse : String → Option Json) (policy : Option Policy) :
    Option (GoMap String UInt32) :=
  match policy with
  | none => none
  | some p =>
    if p.riskThresholds = "" then none
    else
      let out := unmarshal parse decodeWeights p.riskThresholds (some ∅)
      if out.ok then out.value else none

def setWrapper (key : String) (j : Json) (weights : Option (GoMap String UInt32)) :
    Decoded (Option (GoMap String UInt32)) :=
  if matchesField key "signal_weights" then decodeWeights j weights else ⟨weights, true⟩

def parseWeights (parse : String → Option Json) (policy : Option Policy) :
    Option (GoMap UInt32 UInt32) :=
  match policy with
  | none => none
  | some p =>
    if p.rules = "" then none
    else
      let wrapper := unmarshal parse (decodeStruct setWrapper) p.rules none
      if wrapper.ok then wrapper.value.map fun m => m.rekey parseIndex else none

end Trust

/-! ## What both read -/

section agreement

variable {parse : String → Option Json}

theorem unmarshal_setPolicyDoc (text : String) :
    (unmarshal parse (decodeStruct Config.setPolicyDoc) text .zero).value.signalWeights =
      (unmarshal parse (decodeStruct Trust.setWrapper) text none).value := by
  unfold unmarshal
  cases parse text with
  | none => rfl
  | some j =>
    refine (decodeStruct_proj (π := Config.PolicyDoc.signalWeights) ?_ ?_ j .zero).1
    all_goals
      intro k j doc
      unfold Config.setPolicyDoc Trust.setWrapper
      by_cases hw : matchesField k "signal_weights" = true
      · simp [hw]
      · simp only [hw, Bool.false_eq_true, if_false]
        split
        · simp
        · split <;> simp

/-- **Both services find the same weights object.** -/
theorem signalWeights_parsePolicyDoc {rules : String} (hne : rules ≠ "") :
    (Config.parsePolicyDoc parse rules).signalWeights =
      (unmarshal parse (decodeStruct Trust.setWrapper) rules none).value := by
  rw [← unmarshal_setPolicyDoc]
  unfold Config.parsePolicyDoc
  rw [if_neg hne]
  dsimp only
  split
  · rfl
  · split <;> rfl

def HasWeights (parse : String → Option Json) (rules : String) (m : GoMap String UInt32) : Prop :=
  rules ≠ "" ∧ unmarshal parse (decodeStruct Trust.setWrapper) rules none = ⟨some m, true⟩

def HasThresholds (parse : String → Option Json) (text : String) (m : GoMap String UInt32) : Prop :=
  text ≠ "" ∧ unmarshal parse decodeWeights text (some ∅) = ⟨some m, true⟩

variable {p : Policy} {m : GoMap String UInt32}

theorem signalWeights_buildPolicyConfig (sha256 : Bytes → Bytes) (h : HasWeights parse p.rules m) :
    (Config.buildPolicyConfig parse sha256 p).signalWeights = m.rekey scanIndex := by
  show ((Config.parsePolicyDoc parse p.rules).signalWeights.getD ∅).rekey scanIndex = _
  rw [signalWeights_parsePolicyDoc h.1, h.2]
  rfl

theorem parseWeights_eq (h : HasWeights parse p.rules m) :
    Trust.parseWeights parse (some p) = some (m.rekey parseIndex) := by
  unfold Trust.parseWeights
  simp only [if_neg h.1, h.2, if_true, Option.map_some]

theorem riskThresholds_buildPolicyConfig (sha256 : Bytes → Bytes)
    (h : HasThresholds parse p.riskThresholds m) :
    (Config.buildPolicyConfig parse sha256 p).riskThresholds = m := by
  show Config.thresholdsOf parse p.riskThresholds = m
  unfold Config.thresholdsOf
  rw [if_pos h.1, h.2]
  rfl

theorem parseThresholds_eq (h : HasThresholds parse p.riskThresholds m) :
    Trust.parseThresholds parse (some p) = some m := by
  unfold Trust.parseThresholds
  simp only [if_neg h.1, h.2, if_true]

end agreement

end Kseal
