import Kseal.Ingest.QueryService
import Kseal.Server.RiskOrder

/-!
# The policy simulator (`data-plane/simulator/service.go`)

Recorded events are replayed under the current and a candidate policy. The keys of the counts of a
`DiffReport` are a parameter: decisions, or their names.
-/

namespace Kseal.Simulator

open Infra Wire Risk Ingest

structure PolicySpec where
  thresholds : Option (GoMap String UInt32)
  weights : Option (GoMap UInt32 UInt32)
  mode : EnforcementMode

structure DiffReport (κ : Type) where
  total : Nat
  currentCounts : GoMap κ Nat
  candidateCounts : GoMap κ Nat
  changed : Nat
  newlyBlocked : Nat
  newlyAllowed : Nat

def DiffReport.zero (κ : Type) : DiffReport κ := ⟨0, ∅, ∅, 0, 0, 0⟩

def isBlock (d : Decision) : Bool := d = .deny

section report

variable {κ : Type} [DecidableEq κ]

def DiffReport.add (key : Decision → κ) (report : DiffReport κ) (cur cand : Decision) :
    DiffReport κ :=
  let counted := { report with
    total := report.total + 1
    currentCounts := report.currentCounts.incr (key cur)
    candidateCounts := report.candidateCounts.incr (key cand) }
  if cur ≠ cand then
    { counted with
      changed := report.changed + 1
      newlyBlocked := report.newlyBlocked + if isBlock cand && !isBlock cur then 1 else 0
      newlyAllowed := report.newlyAllowed + if !isBlock cand && isBlock cur then 1 else 0 }
  else counted

def DiffReport.of (key : Decision → κ) (ds : List (Decision × Decision)) : DiffReport κ :=
  ds.foldl (fun report d => report.add key d.1 d.2) (.zero κ)

end report

def decide (bits : UInt64) (spec : PolicySpec) : Decision :=
  let score := score bits spec.weights
  let level := level score spec.thresholds
  decision level spec.mode

def simulate {ε : Type} (query : Query → Except ε (List StoredEvent)) (tenantID appID : Bytes)
    (fromTime toTime : Int64) (current candidate : PolicySpec) :
    Except ε (DiffReport Decision) := do
  let events ← query ⟨tenantID, appID, [], [], [], fromTime, toTime⟩
  return events.foldl (fun report e =>
    let bits := normalizeStored e.riskBits e.riskBitsLayout
    report.add id (decide bits current) (decide bits candidate)) (.zero Decision)

/-! ## What the report says -/

section report

variable {κ : Type} [DecidableEq κ]

theorem DiffReport.of_append_singleton (key : Decision → κ) (ds : List (Decision × Decision))
    (d : Decision × Decision) :
    DiffReport.of key (ds ++ [d]) = (DiffReport.of key ds).add key d.1 d.2 := by
  unfold DiffReport.of
  rw [List.foldl_append]
  rfl

theorem DiffReport.add_eq (key : Decision → κ) (report : DiffReport κ) (cur cand : Decision) :
    report.add key cur cand =
      { total := report.total + 1
        currentCounts := report.currentCounts.incr (key cur)
        candidateCounts := report.candidateCounts.incr (key cand)
        changed := report.changed + if cur ≠ cand then 1 else 0
        newlyBlocked := report.newlyBlocked + if cand = .deny ∧ cur ≠ .deny then 1 else 0
        newlyAllowed := report.newlyAllowed + if cand ≠ .deny ∧ cur = .deny then 1 else 0 } := by
  unfold DiffReport.add isBlock
  by_cases hne : cur ≠ cand
  · simp [hne]
  · obtain rfl := not_not.mp hne
    simp

theorem DiffReport.of_eq (key : Decision → κ) (ds : List (Decision × Decision)) :
    DiffReport.of key ds =
      { total := ds.length
        currentCounts := GoMap.tally (ds.map fun d => key d.1)
        candidateCounts := GoMap.tally (ds.map fun d => key d.2)
        changed := ds.countP fun d => d.1 ≠ d.2
        newlyBlocked := ds.countP fun d => d.2 = .deny ∧ d.1 ≠ .deny
        newlyAllowed := ds.countP fun d => d.2 ≠ .deny ∧ d.1 = .deny } := by
  induction ds using List.reverseRecOn with
  | nil => rfl
  | append_singleton ds d ih =>
    rw [DiffReport.of_append_singleton, ih, DiffReport.add_eq]
    simp [GoMap.tally]

theorem deny_balance (ds : List (Decision × Decision)) :
    ds.countP (fun d => d.2 = .deny) + ds.countP (fun d => d.2 ≠ .deny ∧ d.1 = .deny) =
      ds.countP (fun d => d.1 = .deny) + ds.countP (fun d => d.2 = .deny ∧ d.1 ≠ .deny) := by
  induction ds with
  | nil => rfl
  | cons d ds ih =>
    have hone : (if d.2 = .deny then 1 else 0) + (if d.2 ≠ .deny ∧ d.1 = .deny then 1 else 0) =
        (if d.1 = .deny then 1 else 0) + if d.2 = .deny ∧ d.1 ≠ .deny then 1 else 0 := by
      by_cases h₁ : d.1 = .deny
      · by_cases h₂ : d.2 = .deny <;> simp [h₁, h₂]
      · by_cases h₂ : d.2 = .deny <;> simp [h₁]
    simp only [List.countP_cons, decide_eq_true_eq]
    omega

end report

/-! ## Stricter policies -/

theorem decide_ne_unspecified (bits : UInt64) (spec : PolicySpec) :
    decide bits spec ≠ .unspecified :=
  decision_ne_unspecified _ _

structure Stricter (current candidate : PolicySpec) : Prop where
  weights : ∀ i, bitWeight current.weights i ≤ bitWeight candidate.weights i
  thresholds : ThresholdsLe current.thresholds candidate.thresholds
  mode : ModeLe current.mode candidate.mode

/-- **A stricter policy decides no milder.** -/
theorem Stricter.severity_le {current candidate : PolicySpec} (h : Stricter current candidate)
    (bits : UInt64) : severity (decide bits current) ≤ severity (decide bits candidate) := by
  have hscore := score_le_score (Finset.Subset.refl (Infra.bits bits)) h.weights
  exact severity_decision_le (levelLe_level hscore h.thresholds) h.mode

theorem Stricter.deny {current candidate : PolicySpec} (h : Stricter current candidate)
    {bits : UInt64} (hdeny : decide bits current = .deny) : decide bits candidate = .deny := by
  have hle := h.severity_le bits
  rw [severity_le_iff (decide_ne_unspecified _ _) (decide_ne_unspecified _ _)] at hle
  exact hle.1 hdeny

end Kseal.Simulator
