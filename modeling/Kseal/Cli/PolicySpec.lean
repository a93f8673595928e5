import Kseal.Server.PolicyDoc
import Kseal.Server.Simulator

/-!
# Policy files of the command line tool (`internal/cli/policyspec.go`)

`parse` is the JSON reader, `quote` the quoting of `%q`. Errors that wrap one of the JSON reader
leave its text out.
-/

namespace Kseal.Cli

open Infra Wire Risk Simulator

/-! ## Policy documents -/

structure PolicyDoc where
  rules : Option (List Config.RuleDoc)
  signalWeights : Option (GoMap String UInt32)

def PolicyDoc.zero : PolicyDoc := ⟨none, none⟩

def setPolicyDoc (key : String) (j : Json) (doc : PolicyDoc) : Decoded PolicyDoc :=
  if matchesField key "signal_weights" then
    let d := decodeWeights j doc.signalWeights
    ⟨{ doc with signalWeights := d.value }, d.ok⟩
  else if matchesField key "rules" then
    let d := Config.decodeRules j doc.rules
    ⟨{ doc with rules := d.value }, d.ok⟩
  else ⟨doc, true⟩

def parseEnforcementMode (s : String) : Option EnforcementMode :=
  if s = "observe" ∨ s = "OBSERVE" ∨ s = "ENFORCEMENT_MODE_OBSERVE" then some .observe
  else if s = "step_up" ∨ s = "STEP_UP" ∨ s = "ENFORCEMENT_MODE_STEP_UP" then some .stepUp
  else if s = "block" ∨ s = "BLOCK" ∨ s = "ENFORCEMENT_MODE_BLOCK" then some .block
  else none

def validLevelNames : List String :=
  ["TRUSTED", "TRUST_LEVEL_TRUSTED", "LOW_RISK", "TRUST_LEVEL_LOW_RISK", "MEDIUM_RISK",
    "TRUST_LEVEL_MEDIUM_RISK", "HIGH_RISK", "TRUST_LEVEL_HIGH_RISK", "CRITICAL",
    "TRUST_LEVEL_CRITICAL"]

def bitIndex (key : String) : Option UInt32 := (parseIndex key).filter (· ≤ 63)

def parsePolicyDoc (parse : String → Option Json) (rules : String) : Except String PolicyDoc :=
  if rules = "" then .ok .zero
  else
    let d := unmarshal parse (decodeStruct setPolicyDoc) rules .zero
    if d.ok then .ok d.value
    else
      let arr := unmarshal parse Config.decodeRules rules none
      if arr.ok then .ok { d.value with rules := arr.value }
      else .error "rules must be a rules object or an array of rules"

/-! ## Policy files -/

structure PolicyFile where
  name : String
  appID : String
  enforcementMode : String
  rules : String
  riskThresholds : String
  modulesEnabled : List String

def PolicyFile.thresholds (parse : String → Option Json) (pf : PolicyFile) :
    Except String (Option (GoMap String UInt32)) :=
  if pf.riskThresholds = "" then .ok (some ∅)
  else
    let th := unmarshal parse decodeWeights pf.riskThresholds (some ∅)
    if th.ok then .ok th.value
    else .error "risk_thresholds must be a map of level name to score"

def modeProblem (quote : String → String) (mode : String) : String :=
  "enforcement_mode " ++ quote mode ++ " is invalid (want observe|step_up|block)"

def weightProblems (quote : String → String) (weights : GoMap String UInt32) : List String :=
  weights.pairs.filterMap fun e =>
    if bitIndex e.1 = none then
      some ("signal_weights key " ++ quote e.1 ++ " must be a bit index in 0..63")
    else none

def levelProblems (quote : String → String) (thresholds : GoMap String UInt32) : List String :=
  thresholds.pairs.filterMap fun e =>
    if e.1 ∈ validLevelNames then none
    else some ("risk_thresholds key " ++ quote e.1 ++ " is not a valid TrustLevel name")

def actionProblems (quote : String → String) (rules : List Config.RuleDoc) : List String :=
  rules.zipIdx.filterMap fun r =>
    if r.1.action ≠ "" ∧ parseEnforcementMode r.1.action = none then
      some ("rules[" ++ r.2.repr ++ "] (id=" ++ quote r.1.id ++ ") action " ++ quote r.1.action ++
        " is invalid")
    else none

def PolicyFile.validate (parse : String → Option Json) (quote : String → String)
    (pf : PolicyFile) : List String :=
  (if pf.name = "" then ["name is required"] else []) ++
  (if parseEnforcementMode pf.enforcementMode = none then [modeProblem quote pf.enforcementMode]
    else []) ++
  (match parsePolicyDoc parse pf.rules with
    | .error e => [e]
    | .ok doc =>
      actionProblems quote (doc.rules.getD []) ++ weightProblems quote (doc.signalWeights.getD ∅)) ++
  (match pf.thresholds parse with
    | .error e => [e]
    | .ok th => levelProblems quote (th.getD ∅))

def PolicyFile.scoringTables (parse : String → Option Json) (pf : PolicyFile) :
    Except String (GoMap UInt32 UInt32 × Option (GoMap String UInt32)) := do
  let doc ← parsePolicyDoc parse pf.rules
  let thresholds ← pf.thresholds parse
  return ((doc.signalWeights.getD ∅).rekey bitIndex, thresholds)

def PolicyFile.ofPolicy (p : Policy) : PolicyFile := ⟨"", "", "", p.rules, p.riskThresholds, []⟩

def specFromPolicy (parse : String → Option Json) : Option Policy → Except String PolicySpec
  | none => .ok ⟨some ∅, some ∅, .observe⟩
  | some p => do
    let (weights, thresholds) ← (PolicyFile.ofPolicy p).scoringTables parse
    return ⟨thresholds, some weights, p.enforcementMode⟩

/-! ## What is read -/

theorem bitIndex_eq_some_iff {key : String} {i : UInt32} :
    bitIndex key = some i ↔ parseIndex key = some i ∧ i ≤ 63 := by
  unfold bitIndex
  rw [Option.filter_eq_some_iff, decide_eq_true_iff]

theorem decodeStruct_setPolicyDoc (j : Json) :
    (decodeStruct setPolicyDoc j .zero).value.signalWeights =
        (decodeStruct Trust.setWrapper j none).value ∧
      ((decodeStruct setPolicyDoc j .zero).ok = true →
        (decodeStruct Trust.setWrapper j none).ok = true) := by
  refine decodeStruct_proj (π := PolicyDoc.signalWeights) ?_ ?_ j .zero
  all_goals
    intro key j doc
    unfold setPolicyDoc Trust.setWrapper
    by_cases hw : matchesField key "signal_weights" = true
    · simp [hw]
    · simp only [hw, Bool.false_eq_true, if_false]
      split <;> simp

section read

variable {parse : String → Option Json}

theorem parsePolicyDoc_obj {rules : String} {members : List (String × Json)} (hne : rules ≠ "")
    (hparse : parse rules = some (.obj members)) :
    parsePolicyDoc parse rules =
      if (decodeStruct setPolicyDoc (.obj members) .zero).ok then
        .ok (decodeStruct setPolicyDoc (.obj members) .zero).value
      else .error "rules must be a rules object or an array of rules" := by
  have hrules : (Config.decodeRules (.obj members) none).ok = false := rfl
  unfold parsePolicyDoc unmarshal
  rw [if_neg hne, hparse]
  dsimp only
  split <;> rfl

def ThresholdsReadable (parse : String → Option Json) (text : String) : Prop :=
  text = "" ∨ (unmarshal parse decodeWeights text (some ∅)).ok = true

theorem thresholds_isOk_iff (pf : PolicyFile) :
    (∃ th, pf.thresholds parse = .ok th) ↔ ThresholdsReadable parse pf.riskThresholds := by
  unfold PolicyFile.thresholds ThresholdsReadable
  by_cases hempty : pf.riskThresholds = ""
  · simp [hempty]
  · rw [if_neg hempty]
    cases hok : (unmarshal parse decodeWeights pf.riskThresholds (some ∅)).ok with
    | true => simp [hok]
    | false => simp [hok, hempty]

theorem scoringTables_eq_ok_iff {pf : PolicyFile} {weights : GoMap UInt32 UInt32}
    {thresholds : Option (GoMap String UInt32)} :
    pf.scoringTables parse = .ok (weights, thresholds) ↔
      ∃ doc, parsePolicyDoc parse pf.rules = .ok doc ∧ pf.thresholds parse = .ok thresholds ∧
        weights = (doc.signalWeights.getD ∅).rekey bitIndex := by
  unfold PolicyFile.scoringTables
  cases hdoc : parsePolicyDoc parse pf.rules with
  | error e => simp [bind, Except.bind]
  | ok doc =>
    cases hth : pf.thresholds parse with
    | error e => simp [bind, Except.bind]
    | ok th =>
      simp only [bind, Except.bind, pure, Except.pure, Except.ok.injEq, Prod.mk.injEq,
        exists_eq_left']
      constructor
      · rintro ⟨rfl, rfl⟩
        exact ⟨rfl, rfl⟩
      · rintro ⟨rfl, rfl⟩
        exact ⟨rfl, rfl⟩

end read

/-! ## Simulation -/

def PolicySpec.decide (s : PolicySpec) (bits : UInt64) : Decision :=
  let score := score bits s.weights
  let level := level score s.thresholds
  decision level s.mode

def decisionName : Decision → String
  | .allow => "ALLOW"
  | .stepUp => "STEP_UP"
  | .deny => "DENY"
  | .unspecified => "UNSPECIFIED"

def simulate (bitsets : List UInt64) (current candidate : PolicySpec) : DiffReport String :=
  bitsets.foldl (fun report bits =>
    report.add decisionName (PolicySpec.decide current bits) (PolicySpec.decide candidate bits))
    (.zero String)

theorem decisionName_injective : Function.Injective decisionName := by
  intro d d' h
  cases d <;> cases d' <;> first | rfl | exact absurd h (by decide)

end Kseal.Cli
