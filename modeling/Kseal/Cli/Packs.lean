import Kseal.Cli.PolicySpec
import Kseal.Infra.JsonText

/-!
# Policy packs (`internal/cli/packs.go`, `internal/cli/policy_pack.go`)

A pack is compared with the active policy of a tenant on shapes, in which the names of levels are
normalized (`diffPolicy_eq_nil_iff`). Ids and the time are arguments.
-/

namespace Kseal.Cli

open Infra Wire Registry List

structure PolicyPack where
  id : String
  name : String
  enforcementMode : String
  modulesEnabled : List String
  riskThresholds : GoMap String UInt32
  signalWeights : GoMap String UInt32

def PolicyPack.validate (quote : String → String) (p : PolicyPack) : List String :=
  (if p.id = "" then ["id is required"] else []) ++
  (if p.name = "" then ["name is required"] else []) ++
  (if parseEnforcementMode p.enforcementMode = none then [modeProblem quote p.enforcementMode]
    else []) ++
  levelProblems quote p.riskThresholds ++ weightProblems quote p.signalWeights

/-! ## The request -/

def sortedPairs (m : GoMap String UInt32) : List (String × UInt32) :=
  m.pairs.mergeSort fun a b => decide (a.1 ≤ b.1)

def numbersJson (m : GoMap String UInt32) : Json :=
  .obj ((sortedPairs m).map fun e => (e.1, .num e.2.toNat.repr))

def marshal (j : Json) : String := String.ofList j.render

def PolicyPack.rulesJson (p : PolicyPack) : Json :=
  .obj (if p.signalWeights.pairs.length > 0 then
    [("signal_weights", numbersJson p.signalWeights)] else [])

def PolicyPack.toPolicyFile (p : PolicyPack) (name appID : String) : PolicyFile where
  name := name
  appID := appID
  enforcementMode := p.enforcementMode
  rules := marshal p.rulesJson
  riskThresholds :=
    if p.riskThresholds.pairs.length > 0 then marshal (numbersJson p.riskThresholds) else ""
  modulesEnabled := p.modulesEnabled

def joinLines (lines : List String) : String := "\n  - ".intercalate lines

def PolicyPack.createRequest (parse : String → Option Json) (quote : String → String)
    (p : PolicyPack) (tenant name appID : String) : Except String CreatePolicyInput :=
  let pf := p.toPolicyFile name appID
  let problems := pf.validate parse quote
  if problems.length > 0 then .error ("composed policy is invalid:\n  - " ++ joinLines problems)
  else
    .ok
      { tenantID := tenant
        appID := pf.appID
        name := pf.name
        enforcementMode := (parseEnforcementMode pf.enforcementMode).getD .unspecified
        rules := pf.rules
        riskThresholds := pf.riskThresholds
        modulesEnabled := pf.modulesEnabled }

/-! ## Shapes -/

structure PolicyShape where
  mode : EnforcementMode
  thresholds : GoMap String UInt32
  weights : GoMap UInt32 UInt32
  modules : List String

def trimSpace (cs : List Char) : List Char :=
  ((cs.dropWhile isSpace).reverse.dropWhile isSpace).reverse

def upperRune (c : Char) : Char :=
  if 'a' ≤ c ∧ c ≤ 'z' then Char.ofNat (c.toNat - 32)
  else if c.toNat = 0x131 then 'I'
  else if c.toNat = 0x17f then 'S'
  else c

def canonLevel (name : String) : String :=
  let upper := (trimSpace name.toList).map upperRune
  let long := "TRUST_LEVEL_".toList
  String.ofList (if long.isPrefixOf upper then upper.drop long.length else upper)

def canonThresholds (m : GoMap String UInt32) : GoMap String UInt32 :=
  m.rekey fun key => some (canonLevel key)

def PolicyPack.shape (quote : String → String) (p : PolicyPack) : Except String PolicyShape :=
  match parseEnforcementMode p.enforcementMode with
  | none => .error ("invalid enforcement_mode " ++ quote p.enforcementMode)
  | some mode =>
    .ok ⟨mode, canonThresholds p.riskThresholds, p.signalWeights.rekey bitIndex, p.modulesEnabled⟩

def shapeFromPolicy (parse : String → Option Json) : Option Policy → Except String PolicyShape
  | none => .ok ⟨.observe, ∅, ∅, []⟩
  | some p => do
    let spec ← specFromPolicy parse (some p)
    return ⟨spec.mode, canonThresholds (spec.thresholds.getD ∅), spec.weights.getD ∅,
      p.modulesEnabled⟩

/-! ## Differences -/

structure FieldChange where
  field : String
  fromText : String
  toText : String

structure PackDiff where
  packID : String
  changes : List FieldChange

def PackDiff.hasChanges (d : PackDiff) : Bool := d.changes.length > 0

def enforcementModeName : EnforcementMode → String
  | .observe => "observe"
  | .stepUp => "step_up"
  | .block => "block"
  | _ => "unspecified"

def optUintString : Option UInt32 → String
  | none => "—"
  | some v => v.toNat.repr

def entryChange (field : String) (cur cand : Option UInt32) : Option FieldChange :=
  if cur = cand then none else some ⟨field, optUintString cur, optUintString cand⟩

def diffLevels : List String := ["CRITICAL", "HIGH_RISK", "MEDIUM_RISK", "LOW_RISK", "TRUSTED"]

def unionUint32Keys (a b : GoMap UInt32 UInt32) : List UInt32 :=
  (a.keys ++ b.keys).dedup.mergeSort fun k l => decide (k ≤ l)

def newStrings (prev next : List String) : List String :=
  (next.dedup.filter fun s => s ∉ prev).mergeSort fun a b => decide (a ≤ b)

def diffPolicy (packID : String) (current candidate : PolicyShape) : PackDiff where
  packID := packID
  changes :=
    (if current.mode ≠ candidate.mode then
      [⟨"enforcement_mode", enforcementModeName current.mode, enforcementModeName candidate.mode⟩]
      else []) ++
    diffLevels.filterMap (fun lvl => entryChange ("risk_thresholds." ++ lvl)
      (current.thresholds.lookup lvl) (candidate.thresholds.lookup lvl)) ++
    (unionUint32Keys current.weights candidate.weights).filterMap (fun bit =>
      entryChange ("signal_weights." ++ bit.toNat.repr)
        (current.weights.lookup bit) (candidate.weights.lookup bit)) ++
    (newStrings candidate.modules current.modules).map (fun m => ⟨"modules_enabled.-", m, ""⟩) ++
    (newStrings current.modules candidate.modules).map (fun m => ⟨"modules_enabled.+", "", m⟩)

/-! ## Bulk apply -/

inductive BulkStatus where
  | error
  | unchanged
  | wouldApply
  | applied
  | activated
deriving Repr, DecidableEq

structure BulkResult where
  tenantID : String
  status : BulkStatus
  changes : Nat
  policyID : String
  error : String
deriving Repr, DecidableEq

def packDiff (parse : String → Option Json) (quote : String → String) (m : MemStore)
    (tenant appID : String) (pack : PolicyPack) : Except String PackDiff := do
  let current ←
    match m.getActivePolicy tenant appID with
    | .ok p => shapeFromPolicy parse (some p)
    | .error .notFound => shapeFromPolicy parse none
    | .error e => .error e.message
  let candidate ← pack.shape quote
  return diffPolicy pack.id current candidate

structure BulkFlags where
  activate : Bool
  force : Bool
  dryRun : Bool

def bulkApplyOne (parse : String → Option Json) (quote : String → String) (m : MemStore)
    (tenant appID policyName : String) (pack : PolicyPack) (flags : BulkFlags) (id : String)
    (now : Int64) : BulkResult × MemStore :=
  match packDiff parse quote m tenant appID pack with
  | .error e => (⟨tenant, .error, 0, "", e⟩, m)
  | .ok diff =>
    let changes := diff.changes.length
    if !flags.force && !diff.hasChanges then (⟨tenant, .unchanged, changes, "", ""⟩, m)
    else if flags.dryRun then (⟨tenant, .wouldApply, changes, "", ""⟩, m)
    else
      match pack.createRequest parse quote tenant policyName appID with
      | .error e => (⟨tenant, .error, changes, "", e⟩, m)
      | .ok req =>
        match m.createPolicy req id now with
        | .error e => (⟨tenant, .error, changes, "", e.message⟩, m)
        | .ok (p, m) =>
          if flags.activate then
            match m.activatePolicy tenant p.id now with
            | .error e => (⟨tenant, .error, changes, p.id, e.message⟩, m)
            | .ok (_, m) => (⟨tenant, .activated, changes, p.id, ""⟩, m)
          else (⟨tenant, .applied, changes, p.id, ""⟩, m)

/-! ## When shapes do not differ -/

theorem entryChange_eq_none_iff {field : String} {cur cand : Option UInt32} :
    entryChange field cur cand = none ↔ cur = cand := by
  unfold entryChange
  split
  · next h => simp [h]
  · next h => simp [h]

theorem mem_unionUint32Keys {a b : GoMap UInt32 UInt32} {bit : UInt32} :
    bit ∈ unionUint32Keys a b ↔ bit ∈ a ∨ bit ∈ b := by
  unfold unionUint32Keys
  rw [mem_mergeSort, mem_dedup, mem_append, ← AList.mem_keys, ← AList.mem_keys]

theorem newStrings_eq_nil_iff {prev next : List String} :
    newStrings prev next = [] ↔ ∀ s ∈ next, s ∈ prev := by
  unfold newStrings
  rw [← length_eq_zero_iff, length_mergeSort, length_eq_zero_iff]
  simp

structure SameShape (current candidate : PolicyShape) : Prop where
  mode : current.mode = candidate.mode
  thresholds : ∀ lvl ∈ diffLevels, current.thresholds.lookup lvl = candidate.thresholds.lookup lvl
  weights : ∀ bit, current.weights.lookup bit = candidate.weights.lookup bit
  modules : ∀ s, s ∈ current.modules ↔ s ∈ candidate.modules

/-- **Nothing is reported exactly if the shapes agree.** -/
theorem diffPolicy_eq_nil_iff (packID : String) (current candidate : PolicyShape) :
    (diffPolicy packID current candidate).changes = [] ↔ SameShape current candidate := by
  have hweights : (∀ bit ∈ unionUint32Keys current.weights candidate.weights,
      current.weights.lookup bit = candidate.weights.lookup bit) ↔
      ∀ bit, current.weights.lookup bit = candidate.weights.lookup bit := by
    constructor
    · intro h bit
      by_cases hmem : bit ∈ unionUint32Keys current.weights candidate.weights
      · exact h bit hmem
      · rw [mem_unionUint32Keys, not_or] at hmem
        rw [AList.lookup_eq_none.mpr hmem.1, AList.lookup_eq_none.mpr hmem.2]
    · exact fun h bit _ => h bit
  unfold diffPolicy
  simp only [append_eq_nil_iff, filterMap_eq_nil_iff, map_eq_nil_iff,
    entryChange_eq_none_iff, newStrings_eq_nil_iff, hweights]
  constructor
  · rintro ⟨⟨⟨⟨hmode, hlevels⟩, hbits⟩, hremoved⟩, hadded⟩
    refine ⟨?_, hlevels, hbits, fun s => ⟨hremoved s, hadded s⟩⟩
    by_contra hne
    rw [if_pos hne] at hmode
    cases hmode
  · rintro ⟨hmode, hlevels, hbits, hmodules⟩
    exact ⟨⟨⟨⟨if_neg (not_not.mpr hmode), hlevels⟩, hbits⟩, fun s => (hmodules s).mp⟩,
      fun s => (hmodules s).mpr⟩

end Kseal.Cli
