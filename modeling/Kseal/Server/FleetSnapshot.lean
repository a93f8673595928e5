import Kseal.Server.FleetTable
import Mathlib.Data.List.Lex
import Mathlib.Data.Prod.Lex

/-!
# Snapshots of the fleet (`data-plane/fleet/engine.go`)

A snapshot is sorted by tenant, app, build and region, and may be read from the cache. The view of
one tenant is cut out by two binary searches (`tenantSnapshot_eq_filter`).
-/

namespace Kseal.Fleet

open Infra List

variable {cfg : Settings}

/-! ## The order -/

def anomalyKey (a : ScopeAnomaly) : List ℕ ×ₗ List ℕ ×ₗ List ℕ ×ₗ List ℕ :=
  toLex (a.tenantID.map UInt8.toNat, toLex (a.appID.map UInt8.toNat,
    toLex (a.buildHash.map UInt8.toNat, a.region.map UInt8.toNat)))

theorem map_toNat_injective : Function.Injective (List.map UInt8.toNat) :=
  map_injective_iff.mpr fun _ _ => UInt8.toNat_inj.mp

theorem bytes_lt_irrefl (a : Bytes) : ¬ a < a := by
  rw [bytes_lt_iff]
  exact lt_irrefl _

theorem less_iff (a b : ScopeAnomaly) : less a b = true ↔ anomalyKey a < anomalyKey b := by
  unfold anomalyKey less
  simp only [Prod.Lex.toLex_lt_toLex, ← bytes_lt_iff, map_toNat_injective.eq_iff]
  by_cases ht : a.tenantID = b.tenantID
  · by_cases hp : a.appID = b.appID
    · by_cases hb : a.buildHash = b.buildHash
      · simp [ht, hp, hb, bytes_lt_irrefl]
      · simp [ht, hp, hb, bytes_lt_irrefl]
    · simp [ht, hp]
  · simp [ht]

theorem less_eq_false_iff (a b : ScopeAnomaly) :
    less b a = false ↔ anomalyKey a ≤ anomalyKey b := by
  rw [← not_lt, ← less_iff, Bool.not_eq_true]

theorem tenant_le_of_not_less {a b : ScopeAnomaly} (h : less b a = false) :
    ¬ b.tenantID < a.tenantID := by
  intro hlt
  have hless : less b a = true := by
    rw [less_iff]
    unfold anomalyKey
    rw [Prod.Lex.toLex_lt_toLex, ← bytes_lt_iff]
    exact .inl hlt
  rw [h] at hless
  cases hless

/-! ## Reading a snapshot -/

def anomalyOf (ep : Int) (e : ScopeKey × Scope cfg) : Option ScopeAnomaly :=
  let a := e.2.assessLocked ep
  if a.anomalous then some ⟨e.1.tenant, e.1.app, e.1.build, e.1.region, a⟩ else none

def Engine.scan (e : Engine cfg) (ep : Int) : List ScopeAnomaly :=
  (List.finRange shardCount).flatMap fun i => (e.shards i).entries.filterMap (anomalyOf ep)

theorem pairwise_sort (l : List ScopeAnomaly) :
    (l.mergeSort fun a b => !less b a).Pairwise fun a b => less b a = false := by
  have hle : ∀ a b, (!less b a) = true ↔ anomalyKey a ≤ anomalyKey b := by
    intro a b
    rw [Bool.not_eq_true', less_eq_false_iff]
  have hsort : (l.mergeSort fun a b => !less b a).Pairwise fun a b => (!less b a) = true :=
    pairwise_mergeSort
    (fun a b c hab hbc => (hle a c).mpr (((hle a b).mp hab).trans ((hle b c).mp hbc)))
    (fun a b => by
      rw [Bool.or_eq_true, hle, hle]
      exact le_total ..) l
  exact hsort.imp fun h => by simpa using h

def Engine.computeSnapshot (e : Engine cfg) (now : Int) : Snapshot :=
  ⟨(e.scan (cfg.epoch now)).mergeSort fun a b => !less b a, pairwise_sort _⟩

def snapshotFresh (c : CachedSnapshot) (now ttl : Int) : Bool :=
  !decide (now < c.time) && decide (now - c.time < ttl)

def Engine.cached (e : Engine cfg) (now : Int) : Option Snapshot :=
  match e.snap with
  | some c => if snapshotFresh c now cfg.snapTTL then some c.snapshot else none
  | none => none

def Engine.snapshot (e : Engine cfg) (now now' : Int) : Snapshot × Engine cfg :=
  if cfg.snapTTL ≤ 0 then (e.computeSnapshot now, e)
  else
    match e.cached now with
    | some s => (s, e)
    | none =>
      match e.cached now' with
      | some s => (s, e)
      | none =>
        let out := e.computeSnapshot now'
        (out, { e with snap := some ⟨now', out⟩ })

def Engine.tenantSnapshot (e : Engine cfg) (tenant : Bytes) (now now' : Int) :
    List ScopeAnomaly × Engine cfg :=
  let r := e.snapshot now now'
  let all := r.1.val
  let lo := search all.length (holdsAt all fun a => decide (a.tenantID ≥ tenant))
  let hi := search all.length (holdsAt all fun a => decide (a.tenantID > tenant))
  if lo ≥ hi then ([], r.2) else ((all.take hi).drop lo, r.2)

/-! ## The view of a tenant -/

section tenant

variable {all : List ScopeAnomaly} (tenant : Bytes)

theorem eq_iff_ge_and_not_gt (a b : Bytes) : a = b ↔ a ≥ b ∧ ¬ a > b := by
  show a = b ↔ ¬ a < b ∧ ¬ b < a
  rw [bytes_lt_iff, bytes_lt_iff, not_lt, not_lt, ← map_toNat_injective.eq_iff]
  constructor
  · intro h
    rw [h]
    exact ⟨le_rfl, le_rfl⟩
  · exact fun h => le_antisymm h.2 h.1

theorem pairwise_ge (h : all.Pairwise fun a b => less b a = false) :
    all.Pairwise fun a b => decide (a.tenantID ≥ tenant) = true →
      decide (b.tenantID ≥ tenant) = true := by
  refine h.imp fun {a b} hab => ?_
  have hle := tenant_le_of_not_less hab
  rw [decide_eq_true_iff, decide_eq_true_iff]
  show ¬ a.tenantID < tenant → ¬ b.tenantID < tenant
  rw [bytes_lt_iff, not_lt] at hle ⊢
  rw [bytes_lt_iff, not_lt]
  exact fun ha => ha.trans hle

theorem pairwise_gt (h : all.Pairwise fun a b => less b a = false) :
    all.Pairwise fun a b => decide (a.tenantID > tenant) = true →
      decide (b.tenantID > tenant) = true := by
  refine h.imp fun {a b} hab => ?_
  have hle := tenant_le_of_not_less hab
  rw [decide_eq_true_iff, decide_eq_true_iff]
  show tenant < a.tenantID → tenant < b.tenantID
  rw [bytes_lt_iff, not_lt] at hle
  rw [bytes_lt_iff, bytes_lt_iff]
  exact fun ha => ha.trans_le hle

end tenant

/--
**The view of a tenant is the snapshot without the other tenants**: for every engine, tenant and
clock readings, the entries of the snapshot that is read whose tenant is the given one, in the same
order.
-/
theorem tenantSnapshot_eq_filter (e : Engine cfg) (tenant : Bytes) (now now' : Int) :
    (e.tenantSnapshot tenant now now').1 =
      (e.snapshot now now').1.val.filter fun a => a.tenantID = tenant := by
  have hsorted := (e.snapshot now now').1.sorted
  have hslice := filter_eq_slice (pairwise_ge tenant hsorted) (pairwise_gt tenant hsorted)
  have htenant : (e.snapshot now now').1.val.filter (fun a => a.tenantID = tenant) =
      (e.snapshot now now').1.val.filter fun a =>
        decide (a.tenantID ≥ tenant) && !decide (a.tenantID > tenant) := by
    refine filter_congr fun a _ => ?_
    rw [Bool.eq_iff_iff, Bool.and_eq_true, Bool.not_eq_true', decide_eq_true_iff,
      decide_eq_true_iff, decide_eq_false_iff_not]
    exact eq_iff_ge_and_not_gt a.tenantID tenant
  rw [htenant, ← hslice]
  rw [Engine.tenantSnapshot]
  split
  · next hempty =>
    rw [drop_eq_nil_of_le]
    exact (length_take_le ..).trans hempty
  · rfl

end Kseal.Fleet
