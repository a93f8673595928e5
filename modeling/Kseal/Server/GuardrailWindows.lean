import Kseal.Infra.Window
import Kseal.Server.Guardrails
import Mathlib.Algebra.Order.BigOperators.Group.Finset
import Mathlib.Data.Rat.Defs
import Mathlib.Algebra.Field.Rat
import Mathlib.Tactic.Linarith
import Mathlib.Tactic.Positivity

/-!
# What the guardrail windows count (`data-plane/guardrails/detector.go`)

A run of the detector is a list of calls with the epochs of the clock. The window of a reading is
its epoch and the nine before it (`windows_exact_iff`).
-/

namespace Kseal.Guardrails

open Infra List

/-! ## Records and buckets -/

inductive Record where
  | decision (blocked : Bool)
  | flag (name : String) (falsePositive : Bool)
deriving DecidableEq

def Record.isDecision : Record → Bool
  | .decision _ => true
  | .flag .. => false

def Record.isBlock : Record → Bool
  | .decision blocked => blocked
  | .flag .. => false

def Record.isFlag (name : String) : Record → Bool
  | .decision _ => false
  | .flag flagged _ => flagged = name

def Record.isFalsePositive (name : String) : Record → Bool
  | .decision _ => false
  | .flag flagged falsePositive => flagged = name && falsePositive

def Bucket.add (b : Bucket) : Record → Bucket
  | .decision blocked =>
    { b with
      total := b.total + 1
      blocked := if blocked then b.blocked + 1 else b.blocked }
  | .flag name falsePositive =>
    let mc := (b.modules.lookup name).getD ⟨0, 0⟩
    let mc : ModuleCounts :=
      ⟨mc.flagged + 1, if falsePositive then mc.falsePositive + 1 else mc.falsePositive⟩
    { b with modules := b.modules.insert name mc }

def bucketCell : Cell Bucket Record where
  epoch := Bucket.epoch
  fresh e := ⟨e, 0, 0, ∅⟩
  add := Bucket.add
  epoch_fresh _ := rfl
  epoch_add _ x := by cases x <;> rfl

def Bucket.counts (b : Bucket) (name : String) : ModuleCounts :=
  (b.modules.lookup name).getD ⟨0, 0⟩

def Totals.counts (sums : Totals) (name : String) : ModuleCounts :=
  (sums.modules.lookup name).getD ⟨0, 0⟩

def Totals.exactRate (sums : Totals) (name : String) : ℚ :=
  match sums.modules.lookup name with
  | none => 0
  | some mc => if mc.flagged > 0 then (mc.falsePositive : ℚ) / (mc.flagged : ℚ) else 0

def Detector.windowTotals (d : Detector) (epoch : Int) (k : ScopeKey) : Totals :=
  match d.scopes.lookup k with
  | none => ⟨0, 0, ∅⟩
  | some c => c.aggregate epoch

def sampleOf (total blocked : Nat) : Float × Nat :=
  if total = 0 then (0, 0) else (blocked.toFloat / total.toFloat, total)

theorem Detector.sample_eq (d : Detector) (epoch : Int) (k : ScopeKey) :
    d.sample epoch k =
      sampleOf (d.windowTotals epoch k).total (d.windowTotals epoch k).blocked := by
  unfold Detector.sample Detector.windowTotals
  cases d.scopes.lookup k <;> rfl

theorem Totals.exactRate_eq (sums : Totals) (name : String) :
    sums.exactRate name =
      ((sums.counts name).falsePositive : ℚ) / ((sums.counts name).flagged : ℚ) := by
  unfold Totals.exactRate Totals.counts
  cases sums.modules.lookup name with
  | none => simp
  | some mc =>
    by_cases h : mc.flagged = 0
    · simp [h]
    · simp [Nat.pos_of_ne_zero h]

/-! ## The sums of a window -/

section aggregate

variable (c : Counts) (epoch : Int)

theorem aggregate_component {f : Totals → Nat} {w : Bucket → Nat} (h0 : f ⟨0, 0, ∅⟩ = 0)
    (hadd : ∀ sums b, f ⟨sums.total + b.total, sums.blocked + b.blocked,
      b.modules.pairs.foldl addModule sums.modules⟩ = f sums + w b) :
    f (c.aggregate epoch) =
      ∑ i, if InWindow bucketCount epoch (c.buckets i).epoch then w (c.buckets i) else 0 := by
  have hsum := Cell.foldl_window (C := bucketCell) c.buckets epoch _ hadd ⟨0, 0, ∅⟩
  rwa [h0, Nat.zero_add] at hsum

structure Additive (w : ModuleCounts → Nat) : Prop where
  zero : w ⟨0, 0⟩ = 0
  add : ∀ a b : ModuleCounts,
    w ⟨a.flagged + b.flagged, a.falsePositive + b.falsePositive⟩ = w a + w b

theorem additive_flagged : Additive ModuleCounts.flagged := ⟨rfl, fun _ _ => rfl⟩

theorem additive_falsePositive : Additive ModuleCounts.falsePositive := ⟨rfl, fun _ _ => rfl⟩

variable {w : ModuleCounts → Nat}

theorem Additive.addModule (hw : Additive w) (sums : GoMap String ModuleCounts)
    (e : String × ModuleCounts) (name : String) :
    w (((addModule sums e).lookup name).getD ⟨0, 0⟩) =
      w ((sums.lookup name).getD ⟨0, 0⟩) + if e.1 = name then w e.2 else 0 := by
  unfold Guardrails.addModule
  rw [GoMap.lookup_insert_eq]
  by_cases h : name = e.1
  · rw [if_pos h, if_pos h.symm, Option.getD_some, hw.add, h]
  · rw [if_neg h, if_neg (Ne.symm h), Nat.add_zero]

theorem Additive.foldl_addModule (hw : Additive w) (m : GoMap String ModuleCounts)
    (sums : GoMap String ModuleCounts) (name : String) :
    w (((m.pairs.foldl Guardrails.addModule sums).lookup name).getD ⟨0, 0⟩) =
      w ((sums.lookup name).getD ⟨0, 0⟩) + w ((m.lookup name).getD ⟨0, 0⟩) := by
  have hloop : ∀ (l : List (String × ModuleCounts)) (sums : GoMap String ModuleCounts),
      w (((l.foldl Guardrails.addModule sums).lookup name).getD ⟨0, 0⟩) =
        w ((sums.lookup name).getD ⟨0, 0⟩) +
          (l.map fun e => if e.1 = name then w e.2 else 0).sum := by
    intro l
    induction l with
    | nil => simp
    | cons e l ih =>
      intro sums
      rw [foldl_cons, ih, hw.addModule, map_cons, sum_cons, Nat.add_assoc]
  rw [hloop, GoMap.sum_pairs]
  cases m.lookup name with
  | none => simp [hw.zero]
  | some mc => simp

theorem aggregate_total :
    (c.aggregate epoch).total =
      ∑ i, if InWindow bucketCount epoch (c.buckets i).epoch then (c.buckets i).total else 0 :=
  aggregate_component c epoch (f := Totals.total) rfl fun _ _ => rfl

theorem aggregate_blocked :
    (c.aggregate epoch).blocked =
      ∑ i, if InWindow bucketCount epoch (c.buckets i).epoch then (c.buckets i).blocked else 0 :=
  aggregate_component c epoch (f := Totals.blocked) rfl fun _ _ => rfl

theorem aggregate_counts (hw : Additive w) (name : String) :
    w ((c.aggregate epoch).counts name) =
      ∑ i, if InWindow bucketCount epoch (c.buckets i).epoch then w ((c.buckets i).counts name)
        else 0 :=
  aggregate_component c epoch (f := fun sums => w (sums.counts name))
    (w := fun b => w (b.counts name)) hw.zero fun _ b => hw.foldl_addModule b.modules _ name

theorem hasTraffic_iff : c.hasTraffic epoch = true ↔ 0 < (c.aggregate epoch).total := by
  rw [aggregate_total, Finset.sum_pos_iff]
  simp only [Counts.hasTraffic, any_eq_true, mem_finRange, true_and, Bool.and_eq_true,
    decide_eq_true_iff, Finset.mem_univ]
  refine exists_congr fun i => ?_
  by_cases hin : InWindow bucketCount epoch (c.buckets i).epoch
  · rw [if_pos hin]
    unfold InWindow at hin
    omega
  · rw [if_neg hin]
    unfold InWindow at hin
    omega

end aggregate

/-! ## Rings and records -/

variable {p : Record → Bool}

section holds

variable {c : Counts} {h : List (Int × Record)} {epoch : Int}

def countIn (p : Record → Bool) (epoch : Int) (h : List (Int × Record)) : Nat :=
  (itemsIn bucketCount epoch h).countP p

theorem sum_buckets (H : bucketCell.Holds c.buckets h) (hnow : ∀ x ∈ h, x.1 ≤ epoch)
    {f : Bucket → Nat} (hfresh : ∀ e, f ⟨e, 0, 0, ∅⟩ = 0)
    (hadd : ∀ b x, f (b.add x) = f b + if p x = true then 1 else 0) :
    (∑ i, if InWindow bucketCount epoch (c.buckets i).epoch then f (c.buckets i) else 0) =
      countIn p epoch h := by
  rw [countIn, ← sum_ite_eq_countP]
  exact H.sum_window hfresh hadd hnow

theorem total_of_holds (H : bucketCell.Holds c.buckets h) (hnow : ∀ x ∈ h, x.1 ≤ epoch) :
    (c.aggregate epoch).total = countIn Record.isDecision epoch h := by
  rw [aggregate_total]
  refine sum_buckets H hnow (fun _ => rfl) fun b x => ?_
  cases x <;> rfl

theorem blocked_of_holds (H : bucketCell.Holds c.buckets h) (hnow : ∀ x ∈ h, x.1 ≤ epoch) :
    (c.aggregate epoch).blocked = countIn Record.isBlock epoch h := by
  rw [aggregate_blocked]
  refine sum_buckets H hnow (fun _ => rfl) fun b x => ?_
  cases x with
  | decision blocked => cases blocked <;> rfl
  | flag name falsePositive => rfl

theorem counts_add_flag (b : Bucket) (flagged : String) (falsePositive : Bool) (name : String) :
    (b.add (.flag flagged falsePositive)).counts name =
      let mc := b.counts name
      if name = flagged then
        ⟨mc.flagged + 1, if falsePositive then mc.falsePositive + 1 else mc.falsePositive⟩
      else mc := by
  unfold Bucket.counts Bucket.add
  by_cases h : name = flagged
  · subst h
    simp
  · simp [h]

theorem flagged_of_holds (H : bucketCell.Holds c.buckets h) (hnow : ∀ x ∈ h, x.1 ≤ epoch)
    (name : String) :
    ((c.aggregate epoch).counts name).flagged = countIn (Record.isFlag name) epoch h := by
  rw [aggregate_counts c epoch additive_flagged]
  refine sum_buckets H hnow (f := fun b => (b.counts name).flagged) (fun _ => rfl) fun b x => ?_
  cases x with
  | decision blocked => rfl
  | flag flagged falsePositive =>
    rw [counts_add_flag]
    by_cases h : name = flagged
    · simp [Record.isFlag, h]
    · simp [Record.isFlag, h, Ne.symm h]

theorem falsePositive_of_holds (H : bucketCell.Holds c.buckets h) (hnow : ∀ x ∈ h, x.1 ≤ epoch)
    (name : String) :
    ((c.aggregate epoch).counts name).falsePositive =
      countIn (Record.isFalsePositive name) epoch h := by
  rw [aggregate_counts c epoch additive_falsePositive]
  refine sum_buckets H hnow (f := fun b => (b.counts name).falsePositive) (fun _ => rfl)
    fun b x => ?_
  cases x with
  | decision blocked => rfl
  | flag flagged falsePositive =>
    rw [counts_add_flag]
    by_cases h : name = flagged
    · cases falsePositive <;> simp [Record.isFalsePositive, h]
    · simp [Record.isFalsePositive, h, Ne.symm h]

end holds

/-! ## Runs -/

inductive Call where
  | recordDecision (k : ScopeKey) (blocked : Bool)
  | recordModule (k : ScopeKey) (name : String) (falsePositive : Bool)
  | sample (k : ScopeKey)
  | moduleFalsePositiveRate (k : ScopeKey) (name : String)
  | evaluate (minSamples : Int)

def Call.record : Call → Option (ScopeKey × Record)
  | .recordDecision k blocked => some (k, .decision blocked)
  | .recordModule k name falsePositive => some (k, .flag name falsePositive)
  | .sample _ | .moduleFalsePositiveRate .. | .evaluate _ => none

def Call.isEvaluate : Call → Bool
  | .evaluate _ => true
  | _ => false

def Detector.step (threshold : Float) (d : Detector) : Int × Call → Detector
  | (epoch, .recordDecision k blocked) => d.recordDecision epoch k blocked
  | (epoch, .recordModule k name falsePositive) => d.recordModule epoch k name falsePositive
  | (_, .sample _) | (_, .moduleFalsePositiveRate ..) => d
  | (epoch, .evaluate minSamples) => (d.evaluate threshold epoch minSamples).1

def run (threshold : Float) (calls : List (Int × Call)) : Detector :=
  calls.foldl (Detector.step threshold) ⟨∅⟩

def Clock (calls : List (Int × Call)) : Prop :=
  (∀ c ∈ calls, 0 < c.1) ∧ calls.Pairwise fun c c' => c.1 ≤ c'.1

def recordFor (k : ScopeKey) (c : Int × Call) : Option (Int × Record) :=
  match c.2.record with
  | none => none
  | some (k', x) => if k' = k then some (c.1, x) else none

def records (k : ScopeKey) (calls : List (Int × Call)) : List (Int × Record) :=
  calls.filterMap (recordFor k)

/-- **What the readings should be**: the numbers of the records in the window. -/
structure Exact (d : Detector) (calls : List (Int × Call)) (now : Int) : Prop where
  sample : ∀ k, d.sample now k = sampleOf (countIn Record.isDecision now (records k calls))
    (countIn Record.isBlock now (records k calls))
  total : ∀ k, (d.windowTotals now k).total = countIn Record.isDecision now (records k calls)
  blocked : ∀ k, (d.windowTotals now k).blocked = countIn Record.isBlock now (records k calls)
  rate : ∀ k name, (d.windowTotals now k).exactRate name =
    (countIn (Record.isFalsePositive name) now (records k calls) : ℚ) /
      (countIn (Record.isFlag name) now (records k calls) : ℚ)

/-! ### One call -/

def Detector.put (d : Detector) (epoch : Int) (k : ScopeKey) (x : Record) : Detector :=
  ⟨d.scopes.insert k ⟨bucketCell.place (d.scope k).buckets epoch x⟩⟩

theorem step_record {c : Int × Call} {k : ScopeKey} {x : Record} (h : c.2.record = some (k, x))
    (threshold : Float) (d : Detector) : d.step threshold c = d.put c.1 k x := by
  obtain ⟨epoch, call⟩ := c
  cases call <;> cases h <;> rfl

theorem scope_put (d : Detector) (epoch : Int) (k k' : ScopeKey) (x : Record) :
    (d.put epoch k x).scope k' =
      if k' = k then ⟨bucketCell.place (d.scope k).buckets epoch x⟩ else d.scope k' := by
  unfold Detector.put Detector.scope
  rw [GoMap.lookup_insert_eq]
  split
  · rfl
  · rfl

theorem aggregate_zero (epoch : Int) : Counts.zero.aggregate epoch = ⟨0, 0, ∅⟩ :=
  foldl_fixed' (fun _ => ite_self _) _

theorem windowTotals_eq (d : Detector) (epoch : Int) (k : ScopeKey) :
    d.windowTotals epoch k = (d.scope k).aggregate epoch := by
  unfold Detector.windowTotals Detector.scope
  cases d.scopes.lookup k with
  | none => exact (aggregate_zero epoch).symm
  | some c => rfl

theorem scope_evaluate (d : Detector) (threshold : Float) (epoch minSamples : Int) (k : ScopeKey) :
    (d.evaluate threshold epoch minSamples).1.scope k =
      if (d.scope k).hasTraffic epoch = true then d.scope k else .zero := by
  unfold Detector.evaluate Detector.scope
  rw [GoMap.lookup_prune]
  cases d.scopes.lookup k with
  | none => simp
  | some c =>
    rw [Option.filter_some, Option.getD_some]
    split <;> rfl

theorem records_append (k : ScopeKey) (calls : List (Int × Call)) (c : Int × Call) :
    records k (calls ++ [c]) = records k calls ++ (recordFor k c).toList := by
  unfold records
  cases hc : recordFor k c <;> simp [hc]

theorem Clock.le_last {calls : List (Int × Call)} {c : Int × Call} (h : Clock (calls ++ [c])) :
    0 < c.1 ∧ ∀ c' ∈ calls, c'.1 ≤ c.1 :=
  ⟨h.1 c (by simp), fun c' hc' => (pairwise_append.mp h.2).2.2 c' hc' c (by simp)⟩

theorem Clock.initial {calls calls' : List (Int × Call)} (h : Clock calls')
    (hpre : calls <+: calls') : Clock calls :=
  ⟨fun c hc => h.1 c (hpre.subset hc), h.2.sublist hpre.sublist⟩

variable {x : Int × Record}

theorem exists_call_of_mem_records {k : ScopeKey} {calls : List (Int × Call)}
    (hx : x ∈ records k calls) : ∃ c ∈ calls, c.1 = x.1 := by
  obtain ⟨c, hc, hrec⟩ := mem_filterMap.mp hx
  refine ⟨c, hc, ?_⟩
  unfold recordFor at hrec
  split at hrec
  · cases hrec
  · split at hrec
    · cases hrec
      rfl
    · cases hrec

/-! ### What is kept of a scope -/

def Old (now : Int) (x : Int × Record) : Prop := x.1 + bucketCount ≤ now

/-- **What the detector keeps of each scope**: all records but some of the oldest, of which those
with `P` have left the window. -/
def Inv (P : Record → Prop) (d : Detector) (calls : List (Int × Call)) (now : Int) : Prop :=
  ∀ k, ∃ dropped kept, records k calls = dropped ++ kept ∧
    bucketCell.Holds (d.scope k).buckets kept ∧ ∀ x ∈ dropped, P x.2 → Old now x

section inv

variable {P : Record → Prop} {d : Detector} {calls : List (Int × Call)} {now now' : Int}

theorem Inv.later (h : Inv P d calls now) (hle : now ≤ now') : Inv P d calls now' := by
  intro k
  obtain ⟨dropped, kept, heq, hkept, hold⟩ := h k
  exact ⟨dropped, kept, heq, hkept, fun x hx hp => (hold x hx hp).trans hle⟩

theorem countIn_append (p : Record → Bool) (now : Int) (h h' : List (Int × Record)) :
    countIn p now (h ++ h') = countIn p now h + countIn p now h' := by
  unfold countIn itemsIn
  rw [filter_append, map_append, countP_append]

theorem countIn_pos_iff {h : List (Int × Record)} :
    0 < countIn p now h ↔ ∃ x ∈ h, InWindow bucketCount now x.1 ∧ p x.2 = true := by
  unfold countIn itemsIn
  rw [countP_pos_iff]
  simp only [mem_map, mem_filter, decide_eq_true_iff]
  constructor
  · rintro ⟨a, ⟨x, ⟨hx, hin⟩, rfl⟩, hp⟩
    exact ⟨x, hx, hin, hp⟩
  · rintro ⟨x, hx, hin, hp⟩
    exact ⟨x.2, ⟨x, ⟨hx, hin⟩, rfl⟩, hp⟩

theorem countIn_singleton (p : Record → Bool) (epoch : Int) (x : Record) :
    countIn p epoch [(epoch, x)] = if p x = true then 1 else 0 := by
  have hin : InWindow bucketCount epoch epoch := by
    unfold InWindow
    have : (0 : Int) < bucketCount := by decide
    omega
  simp [countIn, itemsIn, hin]

theorem countIn_eq_zero {h : List (Int × Record)} (hold : ∀ x ∈ h, p x.2 = true → Old now x) :
    countIn p now h = 0 := by
  by_contra hne
  obtain ⟨x, hx, hin, hp⟩ := countIn_pos_iff.mp (Nat.pos_of_ne_zero hne)
  have hleft : x.1 + (bucketCount : Int) ≤ now := hold x hx hp
  have := hin.1
  omega

theorem Inv.countIn_kept {k : ScopeKey} {dropped kept : List (Int × Record)}
    (heq : records k calls = dropped ++ kept) (hold : ∀ x ∈ dropped, P x.2 → Old now x)
    (hp : ∀ x, p x = true → P x) : countIn p now kept = countIn p now (records k calls) := by
  rw [heq, countIn_append, countIn_eq_zero fun x hx hx' => hold x hx (hp x.2 hx'), Nat.zero_add]

theorem inv_nil (P : Record → Prop) (now : Int) : Inv P ⟨∅⟩ [] now := by
  intro k
  exact ⟨[], [], rfl, Cell.Holds.empty, by simp⟩

theorem Inv.put (h : Inv P d calls now) {c : Int × Call} {k : ScopeKey} {x : Record}
    (hclock : Clock (calls ++ [c])) (hrec : c.2.record = some (k, x)) (hnow : now ≤ c.1) :
    Inv P (d.put c.1 k x) (calls ++ [c]) c.1 := by
  intro k'
  obtain ⟨dropped, kept, heq, hkept, hold⟩ := h.later hnow k'
  rw [records_append, scope_put]
  by_cases hk : k' = k
  · subst hk
    have hrecord : recordFor k' c = some (c.1, x) := by simp [recordFor, hrec]
    have htimely : Cell.Timely bucketCount kept c.1 := by
      refine ⟨hclock.le_last.1, fun y hy => ?_⟩
      obtain ⟨c', hc', hy'⟩ := exists_call_of_mem_records (heq ▸ mem_append_right dropped hy)
      have := hclock.le_last.2 c' hc'
      have : (0 : Int) < bucketCount := by decide
      omega
    refine ⟨dropped, kept ++ [(c.1, x)], ?_, ?_, hold⟩
    · rw [hrecord, heq, append_assoc]
      rfl
    · rw [if_pos rfl]
      exact hkept.place htimely x
  · have hrecord : recordFor k' c = none := by simp [recordFor, hrec, Ne.symm hk]
    refine ⟨dropped, kept, ?_, ?_, hold⟩
    · rw [hrecord, heq]
      exact append_nil _
    · rw [if_neg hk]
      exact hkept

theorem Inv.read (h : Inv P d calls now) {c : Int × Call} (hrec : c.2.record = none)
    (hnow : now ≤ c.1) : Inv P d (calls ++ [c]) c.1 := by
  intro k
  have hnone : recordFor k c = none := by simp [recordFor, hrec]
  rw [records_append, hnone]
  obtain ⟨dropped, kept, heq, hkept, hold⟩ := h.later hnow k
  exact ⟨dropped, kept, by rw [heq]; exact append_nil _, hkept, hold⟩

theorem Inv.total (h : Inv P d calls now) (hdec : ∀ x : Record, x.isDecision = true → P x)
    (hnow : ∀ c ∈ calls, c.1 ≤ now) (k : ScopeKey) :
    ((d.scope k).aggregate now).total = countIn Record.isDecision now (records k calls) := by
  obtain ⟨dropped, kept, heq, hkept, hold⟩ := h k
  rw [← Inv.countIn_kept heq hold hdec]
  refine total_of_holds hkept fun x hx => ?_
  obtain ⟨c, hc, hcx⟩ := exists_call_of_mem_records (heq ▸ mem_append_right dropped hx)
  exact hcx ▸ hnow c hc

/-- **`Evaluate`** drops a scope only if it has no decision in the window. -/
theorem Inv.evaluate (h : Inv P d calls now) (hdec : ∀ x : Record, x.isDecision = true → P x)
    {epoch minSamples : Int} (hclock : ∀ c ∈ calls, c.1 ≤ epoch) (hnow : now ≤ epoch)
    (hP : ∀ k, countIn Record.isDecision epoch (records k calls) = 0 →
      ∀ x ∈ records k calls, P x.2 → Old epoch x) (threshold : Float) :
    Inv P (d.evaluate threshold epoch minSamples).1 (calls ++ [(epoch, .evaluate minSamples)])
      epoch := by
  have h' := h.later hnow
  intro k
  have hnone : recordFor k (epoch, .evaluate minSamples) = none := rfl
  rw [records_append, hnone, Option.toList_none, append_nil, scope_evaluate]
  split
  · exact h' k
  · next htraffic =>
    rw [hasTraffic_iff, h'.total hdec hclock k, Nat.pos_iff_ne_zero, not_not] at htraffic
    exact ⟨records k calls, [], by rw [append_nil], Cell.Holds.empty, hP k htraffic⟩

end inv

/-! ### All calls -/

/-- At the `Evaluate` calls of the run, the records with `P` of every scope without a decision in
the window have left it. -/
def EvaluateKeeps (P : Record → Prop) (calls : List (Int × Call)) : Prop :=
  ∀ before epoch minSamples, before ++ [(epoch, .evaluate minSamples)] <+: calls →
    ∀ k, countIn Record.isDecision epoch (records k before) = 0 →
      ∀ x ∈ records k before, P x.2 → Old epoch x

theorem EvaluateKeeps.initial {P : Record → Prop} {calls calls' : List (Int × Call)}
    (h : EvaluateKeeps P calls') (hpre : calls <+: calls') : EvaluateKeeps P calls :=
  fun before epoch minSamples hbefore => h before epoch minSamples (hbefore.trans hpre)

theorem run_append (threshold : Float) (calls : List (Int × Call)) (c : Int × Call) :
    run threshold (calls ++ [c]) = (run threshold calls).step threshold c := by
  unfold run
  rw [foldl_append, foldl_cons, foldl_nil]

/-- **What is dropped has left the window**, along every run. -/
theorem Inv.run {P : Record → Prop} (hdec : ∀ x : Record, x.isDecision = true → P x)
    (threshold : Float) {calls : List (Int × Call)} (hclock : Clock calls)
    (hkeeps : EvaluateKeeps P calls) {now : Int} (hnow : ∀ c ∈ calls, c.1 ≤ now) :
    Inv P (run threshold calls) calls now := by
  induction calls using List.reverseRecOn generalizing now with
  | nil => exact inv_nil P now
  | append_singleton calls c ih =>
    have hlast := hclock.le_last.2
    have hpre := prefix_append calls [c]
    have hinv := ih (hclock.initial hpre) (hkeeps.initial hpre) hlast
    refine Inv.later ?_ (hnow c (by simp))
    rw [run_append]
    cases hrec : c.2.record with
    | some e =>
      rw [step_record hrec]
      exact hinv.put hclock hrec le_rfl
    | none =>
      obtain ⟨epoch, call⟩ := c
      cases call with
      | recordDecision k blocked => cases hrec
      | recordModule k name falsePositive => cases hrec
      | sample k => exact hinv.read hrec le_rfl
      | moduleFalsePositiveRate k name => exact hinv.read hrec le_rfl
      | evaluate minSamples =>
        exact hinv.evaluate hdec hlast le_rfl (hkeeps _ _ _ prefix_rfl) threshold

/-! ### Exact readings -/

theorem old_of_not_inWindow {now : Int} (hle : x.1 ≤ now) (hout : ¬ InWindow bucketCount now x.1) :
    Old now x := by
  unfold Old
  unfold InWindow at hout
  omega

theorem records_le {k : ScopeKey} {calls : List (Int × Call)} {now : Int}
    (hnow : ∀ c ∈ calls, c.1 ≤ now) (hx : x ∈ records k calls) : x.1 ≤ now := by
  obtain ⟨c, hc, hcx⟩ := exists_call_of_mem_records hx
  exact hcx ▸ hnow c hc

theorem evaluateKeeps_decisions {calls : List (Int × Call)} (hclock : Clock calls) :
    EvaluateKeeps (fun x => x.isDecision = true) calls := by
  intro before epoch minSamples hbefore k hzero x hx hdec
  have hle := (hclock.initial hbefore).le_last.2
  refine old_of_not_inWindow (records_le hle hx) fun hin => ?_
  exact (countIn_pos_iff.mpr ⟨x, hx, hin, hdec⟩).ne' hzero

/-- **No `Evaluate` comes by a scope that has flags in the window but no decision.** -/
def Covered (calls : List (Int × Call)) : Prop :=
  ∀ before epoch minSamples, before ++ [(epoch, .evaluate minSamples)] <+: calls →
    ∀ k, 0 < countIn (fun x => !x.isDecision) epoch (records k before) →
      0 < countIn Record.isDecision epoch (records k before)

theorem Covered.evaluateKeeps {calls : List (Int × Call)} (h : Covered calls)
    (hclock : Clock calls) : EvaluateKeeps (fun _ => True) calls := by
  intro before epoch minSamples hbefore k hzero x hx _
  by_cases hdec : x.2.isDecision = true
  · exact evaluateKeeps_decisions hclock before epoch minSamples hbefore k hzero x hx hdec
  · have hle := (hclock.initial hbefore).le_last.2
    refine old_of_not_inWindow (records_le hle hx) fun hin => ?_
    have hflag : 0 < countIn (fun x => !x.isDecision) epoch (records k before) :=
      countIn_pos_iff.mpr ⟨x, hx, hin, by simpa using hdec⟩
    exact (h before epoch minSamples hbefore k hflag).ne' hzero

section readings

variable {d : Detector} {calls : List (Int × Call)} {now : Int}

theorem Inv.sample_exact (h : Inv (fun x => x.isDecision = true) d calls now)
    (hnow : ∀ c ∈ calls, c.1 ≤ now) (k : ScopeKey) :
    (d.windowTotals now k).total = countIn Record.isDecision now (records k calls) ∧
      (d.windowTotals now k).blocked = countIn Record.isBlock now (records k calls) := by
  rw [windowTotals_eq]
  refine ⟨h.total (fun _ hx => hx) hnow k, ?_⟩
  obtain ⟨dropped, kept, heq, hkept, hold⟩ := h k
  have hblock : ∀ x : Record, x.isBlock = true → x.isDecision = true := by
    intro x hx
    cases x with
    | decision blocked => rfl
    | flag name falsePositive => cases hx
  rw [← Inv.countIn_kept heq hold hblock]
  exact blocked_of_holds hkept fun x hx => records_le hnow (heq ▸ mem_append_right dropped hx)

theorem Inv.rate_exact (h : Inv (fun _ => True) d calls now) (hnow : ∀ c ∈ calls, c.1 ≤ now)
    (k : ScopeKey) (name : String) :
    (d.windowTotals now k).exactRate name =
      (countIn (Record.isFalsePositive name) now (records k calls) : ℚ) /
        (countIn (Record.isFlag name) now (records k calls) : ℚ) := by
  obtain ⟨dropped, kept, heq, hkept, hold⟩ := h k
  have hkeptle : ∀ x ∈ kept, x.1 ≤ now :=
    fun x hx => records_le hnow (heq ▸ mem_append_right dropped hx)
  rw [windowTotals_eq, Totals.exactRate_eq, flagged_of_holds hkept hkeptle,
    falsePositive_of_holds hkept hkeptle, Inv.countIn_kept heq hold fun _ _ => trivial,
    Inv.countIn_kept heq hold fun _ _ => trivial]

theorem exact_of_covered (threshold : Float) (hclock : Clock calls) (hcovered : Covered calls)
    (hnow : ∀ c ∈ calls, c.1 ≤ now) : Exact (run threshold calls) calls now := by
  have hdecisions := Inv.run (fun _ hx => hx) threshold hclock (evaluateKeeps_decisions hclock) hnow
  have hall := Inv.run (fun _ _ => trivial) threshold hclock (hcovered.evaluateKeeps hclock) hnow
  have hsample := hdecisions.sample_exact hnow
  refine ⟨fun k => ?_, fun k => (hsample k).1, fun k => (hsample k).2, hall.rate_exact hnow⟩
  rw [Detector.sample_eq, (hsample k).1, (hsample k).2]

end readings

/-! ### The readings after a scope was dropped -/

section dropped

variable {before : List (Int × Call)} {epoch minSamples : Int} {k : ScopeKey}

theorem scope_dropped (threshold : Float)
    (hclock : Clock (before ++ [(epoch, .evaluate minSamples)]))
    (hzero : countIn Record.isDecision epoch (records k before) = 0) :
    (run threshold (before ++ [(epoch, .evaluate minSamples)])).scope k = .zero := by
  have hle := hclock.le_last.2
  have hbefore := hclock.initial (prefix_append ..)
  have hinv := Inv.run (fun _ hx => hx) threshold hbefore (evaluateKeeps_decisions hbefore) hle
  rw [run_append]
  show ((run threshold before).evaluate threshold epoch minSamples).1.scope k = .zero
  rw [scope_evaluate, if_neg]
  rw [hasTraffic_iff, hinv.total (fun _ hx => hx) hle, hzero]
  exact Nat.lt_irrefl 0

theorem rate_of_dropped {d : Detector} (hscope : d.scope k = .zero) (hpos : 0 < epoch)
    (name : String) :
    ((d.put epoch k (.flag name true)).windowTotals epoch k).exactRate name = 1 := by
  have hholds : bucketCell.Holds (bucketCell.place (d.scope k).buckets epoch (.flag name true))
      ([] ++ [(epoch, .flag name true)]) := by
    rw [hscope]
    exact Cell.Holds.empty.place ⟨hpos, by simp⟩ _
  have hnow : ∀ x ∈ [] ++ [(epoch, Record.flag name true)], x.1 ≤ epoch := by simp
  rw [windowTotals_eq, scope_put, if_pos rfl, Totals.exactRate_eq, flagged_of_holds hholds hnow,
    falsePositive_of_holds hholds hnow]
  simp [countIn_singleton, Record.isFlag, Record.isFalsePositive]

theorem not_exact_of_dropped (threshold : Float)
    (hclock : Clock (before ++ [(epoch, .evaluate minSamples)]))
    (hzero : countIn Record.isDecision epoch (records k before) = 0) {name : String}
    (hpos : 0 < countIn (Record.isFlag name) epoch (records k before))
    (hexact : ∀ more, (∀ c ∈ more, c.2.isEvaluate = false) →
      Clock (before ++ [(epoch, .evaluate minSamples)] ++ more) →
      (∀ c ∈ before ++ [(epoch, .evaluate minSamples)] ++ more, c.1 ≤ epoch) →
        Exact (run threshold (before ++ [(epoch, .evaluate minSamples)] ++ more))
          (before ++ [(epoch, .evaluate minSamples)] ++ more) epoch) : False := by
  have hscope := scope_dropped threshold hclock hzero
  have hle : ∀ c ∈ before ++ [(epoch, .evaluate minSamples)], c.1 ≤ epoch := by
    rw [forall_mem_append, forall_mem_singleton]
    exact ⟨hclock.le_last.2, le_rfl⟩
  have hrecords : records k (before ++ [(epoch, .evaluate minSamples)]) = records k before := by
    rw [records_append]
    exact append_nil _
  have hflags : (countIn (Record.isFlag name) epoch (records k before) : ℚ) ≠ 0 := by
    exact_mod_cast hpos.ne'
  -- At once: the rate reads as 0, so none of the flags was a false positive.
  have hnone : (countIn (Record.isFalsePositive name) epoch (records k before) : ℚ) = 0 := by
    have hread := (hexact [] (by simp) (by rwa [append_nil]) (by rwa [append_nil])).rate
      k name
    rw [append_nil, windowTotals_eq, hscope, aggregate_zero, hrecords] at hread
    exact (div_eq_zero_iff.mp hread.symm).resolve_right hflags
  -- After one more flag, a false positive: the rate reads as 1.
  have hnext : (1 : ℚ) = 1 / (countIn (Record.isFlag name) epoch (records k before) + 1) := by
    have hread := (hexact [(epoch, .recordModule k name true)] (by simp [Call.isEvaluate])
      ⟨by
        rw [forall_mem_append, forall_mem_singleton]
        exact ⟨hclock.1, hclock.le_last.1⟩, by
        rw [pairwise_append]
        exact ⟨hclock.2, pairwise_singleton .., by simpa using hle⟩⟩
      (by
        rw [forall_mem_append, forall_mem_singleton]
        exact ⟨hle, le_rfl⟩)).rate k name
    rw [run_append, step_record (k := k) (x := .flag name true) rfl,
      rate_of_dropped hscope hclock.le_last.1, records_append, hrecords, countIn_append,
      countIn_append, Nat.cast_add, hnone] at hread
    simpa [recordFor, Call.record, countIn_singleton, Record.isFlag, Record.isFalsePositive]
      using hread
  rw [eq_div_iff (by positivity)] at hnext
  exact hflags (by linarith)

end dropped

theorem Covered.append {calls before more : List (Int × Call)} (h : Covered calls)
    (hbefore : before <+: calls) (hmore : ∀ c ∈ more, c.2.isEvaluate = false) :
    Covered (before ++ more) := by
  intro before' epoch minSamples hpre
  refine h before' epoch minSamples ?_
  rcases prefix_or_prefix_of_prefix hpre (prefix_append before more) with hin | hout
  · exact hin.trans hbefore
  · obtain ⟨rest, hrest⟩ := hout
    rw [← hrest] at hpre ⊢
    have hsub := (prefix_append_right_inj before).mp hpre
    cases rest using List.reverseRecOn with
    | nil => rwa [append_nil]
    | append_singleton rest c =>
      -- The last call is the `Evaluate`, and is not one of `more`.
      rw [← append_assoc] at hrest
      obtain ⟨-, hlast⟩ := append_inj' hrest rfl
      have hcall := hmore c (hsub.subset (by simp))
      rw [singleton_inj.mp hlast] at hcall
      cases hcall

/--
**The guardrail windows count exactly if and only if no `Evaluate` comes by a scope that has flags
in the window but no decision.**

The readings are those after any first part of the run and any further calls without an `Evaluate`.
The samples are exact in any case; a scope that is dropped with its flags makes the rate of a module
wrong at once, or as soon as the module is flagged again.
-/
theorem windows_exact_iff (threshold : Float) {calls : List (Int × Call)} (hclock : Clock calls) :
    (∀ before, before <+: calls → ∀ more, (∀ c ∈ more, c.2.isEvaluate = false) →
      Clock (before ++ more) → ∀ now, (∀ c ∈ before ++ more, c.1 ≤ now) →
        Exact (run threshold (before ++ more)) (before ++ more) now) ↔
      Covered calls := by
  constructor
  · intro hexact before epoch minSamples hpre k hflags
    by_contra hnone
    have hzero := Nat.eq_zero_of_not_pos hnone
    obtain ⟨⟨_, x⟩, hx, hin, hflag⟩ := countIn_pos_iff.mp hflags
    cases x with
    | decision blocked => cases hflag
    | flag name falsePositive =>
      have hpos : 0 < countIn (Record.isFlag name) epoch (records k before) :=
        countIn_pos_iff.mpr ⟨_, hx, hin, by simp [Record.isFlag]⟩
      exact not_exact_of_dropped threshold (hclock.initial hpre) hzero hpos
        fun more hmore hclock' hnow => hexact _ hpre more hmore hclock' epoch hnow
  · intro hcovered before hpre more hmore hclock' now hnow
    exact exact_of_covered threshold hclock' (hcovered.append hpre hmore) hnow

def decidedAndFlagged : List (Int × Call) :=
  [(100, .recordDecision ⟨"t", "a", "p"⟩ true), (101, .recordModule ⟨"t", "a", "p"⟩ "root" true),
    (102, .evaluate 0)]

theorem windows_exact_decidedAndFlagged :
    Clock decidedAndFlagged ∧ Exact (run 0.05 decidedAndFlagged) decidedAndFlagged 105 := by
  have hclock : Clock decidedAndFlagged := by simp [Clock, decidedAndFlagged]
  have hcovered : Covered decidedAndFlagged := by
    rintro before epoch minSamples ⟨after, hafter⟩ k hflags
    rcases before with _ | ⟨x, _ | ⟨y, _ | ⟨z, rest⟩⟩⟩ <;> simp [decidedAndFlagged] at hafter
    obtain ⟨rfl, rfl, ⟨rfl, rfl⟩, -⟩ := hafter
    by_cases hk : k = ⟨"t", "a", "p"⟩
    · subst hk
      decide +kernel
    · simp [records, recordFor, Call.record, Ne.symm hk, countIn, itemsIn] at hflags
  refine ⟨hclock, ?_⟩
  have h := (windows_exact_iff 0.05 hclock).mpr hcovered _ prefix_rfl [] (by simp)
    (by rwa [append_nil]) 105 (by simp [decidedAndFlagged])
  rwa [append_nil] at h

def flaggedOnly : List (Int × Call) :=
  [(100, .recordModule ⟨"t", "a", "p"⟩ "root" true), (100, .evaluate 0)]

theorem flaggedOnly_inexact :
    Clock flaggedOnly ∧
      ((run 0.05 flaggedOnly).windowTotals 100 ⟨"t", "a", "p"⟩).exactRate "root" = 0 ∧
      countIn (Record.isFalsePositive "root") 100 (records ⟨"t", "a", "p"⟩ flaggedOnly) = 1 ∧
      countIn (Record.isFlag "root") 100 (records ⟨"t", "a", "p"⟩ flaggedOnly) = 1 ∧
      ¬ Exact (run 0.05 flaggedOnly) flaggedOnly 100 := by
  have hrate : ((run 0.05 flaggedOnly).windowTotals 100 ⟨"t", "a", "p"⟩).exactRate "root" = 0 := by
    decide +kernel
  have hfp : countIn (Record.isFalsePositive "root") 100 (records ⟨"t", "a", "p"⟩ flaggedOnly) = 1 :=
    by decide +kernel
  have hflag : countIn (Record.isFlag "root") 100 (records ⟨"t", "a", "p"⟩ flaggedOnly) = 1 := by
    decide +kernel
  refine ⟨by simp [Clock, flaggedOnly], hrate, hfp, hflag, fun h => ?_⟩
  have := h.rate ⟨"t", "a", "p"⟩ "root"
  rw [hrate, hfp, hflag] at this
  norm_num at this

end Kseal.Guardrails
