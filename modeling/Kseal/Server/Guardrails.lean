import Kseal.Infra.GoMap
import Mathlib.Logic.Function.Basic

/-!
# The guardrail detector (`data-plane/guardrails/detector.go`)

Each scope has a ring of ten buckets, and a bucket is cleared when its turn comes again. The epoch
is an argument.
-/

namespace Kseal.Guardrails

open Infra

def bucketCount : Nat := 10

instance : NeZero bucketCount := ⟨by decide⟩

structure ScopeKey where
  tenant : String
  app : String
  policy : String
deriving DecidableEq

structure ModuleCounts where
  flagged : Nat
  falsePositive : Nat

structure Bucket where
  epoch : Int
  total : Nat
  blocked : Nat
  modules : GoMap String ModuleCounts

structure Counts where
  buckets : Fin bucketCount → Bucket

structure Detector where
  scopes : GoMap ScopeKey Counts

def Counts.zero : Counts := ⟨fun _ => ⟨0, 0, 0, ∅⟩⟩

def Detector.scope (d : Detector) (k : ScopeKey) : Counts := (d.scopes.lookup k).getD .zero

def slot (epoch : Int) : Fin bucketCount :=
  Fin.ofNat bucketCount ((epoch.tmod bucketCount + bucketCount).tmod bucketCount).toNat

def Counts.liveBucket (c : Counts) (epoch : Int) : Bucket :=
  let b := c.buckets (slot epoch)
  if b.epoch ≠ epoch then ⟨epoch, 0, 0, ∅⟩ else b

def Counts.setBucket (c : Counts) (epoch : Int) (b : Bucket) : Counts :=
  ⟨Function.update c.buckets (slot epoch) b⟩

def addModule (sums : GoMap String ModuleCounts) (e : String × ModuleCounts) :
    GoMap String ModuleCounts :=
  let mc := (sums.lookup e.1).getD ⟨0, 0⟩
  sums.insert e.1 ⟨mc.flagged + e.2.flagged, mc.falsePositive + e.2.falsePositive⟩

structure Totals where
  total : Nat
  blocked : Nat
  modules : GoMap String ModuleCounts

def Counts.aggregate (c : Counts) (epoch : Int) : Totals :=
  let minEpoch := epoch - (bucketCount - 1)
  (List.finRange bucketCount).foldl (fun sums i =>
    let b := c.buckets i
    if b.epoch < minEpoch ∨ b.epoch > epoch then sums
    else ⟨sums.total + b.total, sums.blocked + b.blocked,
      b.modules.pairs.foldl addModule sums.modules⟩) ⟨0, 0, ∅⟩

/-- The rate `aggregate` gives a module; a module that was not flagged has none, which reads as 0. -/
def Totals.falsePositiveRate (sums : Totals) (name : String) : Float :=
  match sums.modules.lookup name with
  | none => 0
  | some mc => if mc.flagged > 0 then mc.falsePositive.toFloat / mc.flagged.toFloat else 0

def Detector.recordDecision (d : Detector) (epoch : Int) (k : ScopeKey) (blocked : Bool) :
    Detector :=
  let c := d.scope k
  let b := c.liveBucket epoch
  let b := { b with
    total := b.total + 1
    blocked := if blocked then b.blocked + 1 else b.blocked }
  ⟨d.scopes.insert k (c.setBucket epoch b)⟩

def Detector.recordModule (d : Detector) (epoch : Int) (k : ScopeKey) (name : String)
    (falsePositive : Bool) : Detector :=
  let c := d.scope k
  let b := c.liveBucket epoch
  let mc := (b.modules.lookup name).getD ⟨0, 0⟩
  let mc : ModuleCounts :=
    ⟨mc.flagged + 1, if falsePositive then mc.falsePositive + 1 else mc.falsePositive⟩
  ⟨d.scopes.insert k (c.setBucket epoch { b with modules := b.modules.insert name mc })⟩

def Detector.sample (d : Detector) (epoch : Int) (k : ScopeKey) : Float × Nat :=
  match d.scopes.lookup k with
  | none => (0, 0)
  | some c =>
    let sums := c.aggregate epoch
    if sums.total = 0 then (0, 0) else (sums.blocked.toFloat / sums.total.toFloat, sums.total)

def Detector.moduleFalsePositiveRate (d : Detector) (epoch : Int) (k : ScopeKey) (name : String) :
    Float :=
  match d.scopes.lookup k with
  | none => 0
  | some c => (c.aggregate epoch).falsePositiveRate name

def Counts.hasTraffic (c : Counts) (epoch : Int) : Bool :=
  let minEpoch := epoch - (bucketCount - 1)
  (List.finRange bucketCount).any fun i =>
    let b := c.buckets i
    decide (b.epoch ≥ minEpoch) && decide (b.epoch ≤ epoch) && decide (b.total > 0)

structure Alert where
  tenant : String
  app : String
  policy : String
  blockRate : Float
  total : Nat
  blocked : Nat
  recommend : String
  moduleFPRat : GoMap String Float

def Totals.rates (sums : Totals) : GoMap String Float :=
  sums.modules.pairs.foldl (fun fp e =>
    if e.2.flagged > 0 then fp.insert e.1 (e.2.falsePositive.toFloat / e.2.flagged.toFloat)
    else fp) ∅

def blockRateThreshold (threshold : Float) : Float := if threshold ≤ 0 then 0.05 else threshold

def alertFor (threshold : Float) (epoch minSamples : Int) (e : ScopeKey × Counts) : Option Alert :=
  let sums := e.2.aggregate epoch
  if !e.2.hasTraffic epoch then none
  else if sums.total < minSamples then none
  else
    let rate := sums.blocked.toFloat / sums.total.toFloat
    if rate ≤ threshold then none
    else some ⟨e.1.tenant, e.1.app, e.1.policy, rate, sums.total, sums.blocked,
      "rollback to previous policy", sums.rates⟩

def Detector.evaluate (d : Detector) (threshold : Float) (epoch minSamples : Int) :
    Detector × List Alert :=
  let minSamples := if minSamples ≤ 0 then 20 else minSamples
  (⟨d.scopes.prune fun c => c.hasTraffic epoch⟩,
    (d.scopes.pairs.filterMap (alertFor threshold epoch minSamples)).mergeSort
      fun a b => decide (a.blockRate ≥ b.blockRate))

/-! ## Scopes do not mix -/

theorem lookup_recordDecision_of_ne {d : Detector} {k k' : ScopeKey} (hne : k' ≠ k) (epoch : Int)
    (blocked : Bool) :
    (d.recordDecision epoch k blocked).scopes.lookup k' = d.scopes.lookup k' :=
  AList.lookup_insert_ne hne

theorem lookup_recordDecision_congr {d d' : Detector} {k : ScopeKey}
    (h : d.scopes.lookup k = d'.scopes.lookup k) (epoch : Int) (blocked : Bool) :
    (d.recordDecision epoch k blocked).scopes.lookup k =
      (d'.recordDecision epoch k blocked).scopes.lookup k := by
  unfold Detector.recordDecision Detector.scope
  rw [h]
  simp

/-- **A decision counts for its own scope only**: detectors that agree on a scope still do. -/
theorem lookup_recordDecision {d d' : Detector} {k k₀ : ScopeKey} {blocked blocked' : Bool}
    (h : d.scopes.lookup k = d'.scopes.lookup k) (hsame : k₀ = k → blocked = blocked')
    (epoch : Int) :
    (d.recordDecision epoch k₀ blocked).scopes.lookup k =
      (d'.recordDecision epoch k₀ blocked').scopes.lookup k := by
  by_cases hk : k₀ = k
  · subst hk
    rw [hsame rfl]
    exact lookup_recordDecision_congr h epoch blocked'
  · rw [lookup_recordDecision_of_ne (Ne.symm hk), lookup_recordDecision_of_ne (Ne.symm hk), h]

theorem sample_congr {d d' : Detector} {k : ScopeKey} (h : d.scopes.lookup k = d'.scopes.lookup k)
    (epoch : Int) : d.sample epoch k = d'.sample epoch k := by
  unfold Detector.sample
  rw [h]

end Kseal.Guardrails
