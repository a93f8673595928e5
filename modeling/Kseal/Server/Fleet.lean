import Kseal.Infra.Lru
import Kseal.Infra.Search
import Kseal.Infra.Window
import Kseal.Server.Risk

/-!
# The fleet-anomaly engine (`data-plane/fleet/engine.go`)

A cohort has a ring of buckets for the window, and baselines into which a recycled bucket is folded.
The cohorts are spread over shards; each keeps those used last. Times are nanoseconds.
-/

namespace Kseal.Fleet

open Infra

/-! ## Configuration -/

structure Signal where
  name : String
  mask : UInt64

structure Config where
  window : Int
  buckets : Int
  surgeFactor : Float
  absoluteFloor : Float
  coldStartFloor : Float
  minSamples : Int
  baselineAlpha : Float
  velocityFactor : Float
  velocityMinVolume : Int
  velocityColdVolume : Int
  maxScopes : Int
  snapshotTTL : Int
  signals : List Signal

def shardCount : Nat := 256

instance : NeZero shardCount := ⟨by decide⟩

def defaultSignals : List Signal :=
  [⟨"root_jailbreak", Risk.bitRootJailbreak⟩, ⟨"emulator", Risk.bitEmulator⟩,
    ⟨"hooking", Risk.bitHooking⟩, ⟨"app_tamper", Risk.bitAppTamper⟩,
    ⟨"attestation_fail", Risk.bitAttestationFail⟩, ⟨"device_integrity", Risk.bitDeviceIntegrity⟩,
    ⟨"app_unrecognized", Risk.bitAppUnrecognized⟩]

def defaultConfig : Config where
  window := 300000000000
  buckets := 10
  surgeFactor := 3.0
  absoluteFloor := 0.15
  coldStartFloor := 0.30
  minSamples := 50
  baselineAlpha := 0.2
  velocityFactor := 4.0
  velocityMinVolume := 200
  velocityColdVolume := 500
  maxScopes := 200000
  snapshotTTL := 1000000000
  signals := defaultSignals

structure Settings where
  bucketSize : Int
  bucketSize_pos : 0 < bucketSize
  buckets : Nat
  buckets_pos : 0 < buckets
  surgeFactor : Float
  absoluteFloor : Float
  coldStartFloor : Float
  minSamples : Int
  baselineAlpha : Float
  velocityFactor : Float
  velocityMinVolume : Int
  velocityColdVolume : Int
  maxScopes : Nat
  maxScopes_pos : 0 < maxScopes
  snapTTL : Int
  signals : List Signal

instance (cfg : Settings) : NeZero cfg.buckets := ⟨Nat.pos_iff_ne_zero.mp cfg.buckets_pos⟩

def positiveOr (n default : Int) : Int := if n ≤ 0 then default else n

theorem positiveOr_pos (n : Int) {default : Int} (h : 0 < default) : 0 < positiveOr n default := by
  unfold positiveOr
  split <;> omega

def new (cfg : Config) : Settings :=
  let window := positiveOr cfg.window defaultConfig.window
  let buckets := positiveOr cfg.buckets defaultConfig.buckets
  let bucketSize := window.tdiv buckets
  { bucketSize := positiveOr bucketSize 1
    bucketSize_pos := positiveOr_pos _ (by decide)
    buckets := buckets.toNat
    buckets_pos := by
      have := positiveOr_pos cfg.buckets (show 0 < defaultConfig.buckets by decide)
      omega
    surgeFactor := if cfg.surgeFactor ≤ 1 then defaultConfig.surgeFactor else cfg.surgeFactor
    absoluteFloor :=
      if cfg.absoluteFloor ≤ 0 then defaultConfig.absoluteFloor else cfg.absoluteFloor
    coldStartFloor :=
      if cfg.coldStartFloor ≤ 0 then defaultConfig.coldStartFloor else cfg.coldStartFloor
    minSamples := positiveOr cfg.minSamples defaultConfig.minSamples
    baselineAlpha :=
      if cfg.baselineAlpha ≤ 0 ∨ cfg.baselineAlpha > 1 then defaultConfig.baselineAlpha
      else cfg.baselineAlpha
    velocityFactor :=
      if cfg.velocityFactor ≤ 1 then defaultConfig.velocityFactor else cfg.velocityFactor
    velocityMinVolume := positiveOr cfg.velocityMinVolume defaultConfig.velocityMinVolume
    velocityColdVolume := positiveOr cfg.velocityColdVolume defaultConfig.velocityColdVolume
    maxScopes := (positiveOr cfg.maxScopes defaultConfig.maxScopes).toNat
    maxScopes_pos := by
      have := positiveOr_pos cfg.maxScopes (show 0 < defaultConfig.maxScopes by decide)
      omega
    -- A negative TTL stands for no cache.
    snapTTL :=
      if cfg.snapshotTTL = 0 then defaultConfig.snapshotTTL
      else if cfg.snapshotTTL < 0 then 0
      else cfg.snapshotTTL
    signals := if cfg.signals.length = 0 then defaultConfig.signals else cfg.signals }

variable {cfg : Settings}

def Settings.maxScopesPerShard (cfg : Settings) : Nat :=
  let per := cfg.maxScopes / shardCount
  if per < 1 then 1 else per

def Settings.epoch (cfg : Settings) (t : Int) : Int := t.tdiv cfg.bucketSize

/-! ## One cohort -/

structure Ewma where
  value : Float
  seeded : Bool

structure Bucket (cfg : Settings) where
  epoch : Int
  total : Nat
  counts : Fin cfg.signals.length → Nat

structure Scope (cfg : Settings) where
  ring : Fin cfg.buckets → Bucket cfg
  baseline : Fin cfg.signals.length → Ewma
  volBaseline : Ewma

def Scope.new : Scope cfg :=
  ⟨fun _ => ⟨0, 0, fun _ => 0⟩, fun _ => ⟨0, false⟩, ⟨0, false⟩⟩

def foldEWMA (bl : Ewma) (sample alpha : Float) : Ewma :=
  if !bl.seeded then ⟨sample, true⟩
  else { bl with value := alpha * sample + (1 - alpha) * bl.value }

def Scope.foldBaseline (sc : Scope cfg) (b : Bucket cfg) : Scope cfg :=
  { sc with
    baseline := fun i =>
      foldEWMA (sc.baseline i) ((b.counts i).toFloat / b.total.toFloat) cfg.baselineAlpha
    volBaseline := foldEWMA sc.volBaseline b.total.toFloat cfg.baselineAlpha }

def Bucket.add (b : Bucket cfg) (bits : UInt64) : Bucket cfg :=
  { b with
    total := b.total + 1
    counts := fun i =>
      if bits &&& cfg.signals[i].mask ≠ 0 then b.counts i + 1 else b.counts i }

def meets (cfg : Settings) (i : Fin cfg.signals.length) (bits : UInt64) : Bool :=
  bits &&& cfg.signals[i].mask ≠ 0

def Scope.observeLocked (sc : Scope cfg) (ep : Int) (bits : UInt64) : Scope cfg :=
  let idx := ringSlot cfg.buckets ep
  let b := sc.ring idx
  if b.epoch ≠ ep then
    let sc := if b.epoch ≠ 0 ∧ b.total > 0 then sc.foldBaseline b else sc
    { sc with ring := Function.update sc.ring idx (Bucket.add ⟨ep, 0, fun _ => 0⟩ bits) }
  else { sc with ring := Function.update sc.ring idx (b.add bits) }

structure SignalAssessment where
  name : String
  currentRate : Float
  baseline : Float
  surgeRatio : Float

structure Assessment where
  anomalous : Bool
  signals : List SignalAssessment
  velocitySurge : Bool
  velocityRatio : Float
  observed : Nat

structure WindowSums (cfg : Settings) where
  total : Nat
  counts : Fin cfg.signals.length → Nat

def Scope.windowSums (sc : Scope cfg) (ep : Int) : WindowSums cfg :=
  let minEpoch := ep - ((cfg.buckets : Int) - 1)
  (List.finRange cfg.buckets).foldl (fun sums i =>
    let b := sc.ring i
    if b.epoch < minEpoch ∨ b.epoch > ep then sums
    else ⟨sums.total + b.total, fun j => sums.counts j + b.counts j⟩) ⟨0, fun _ => 0⟩

def Scope.assessSignal (sc : Scope cfg) (sums : WindowSums cfg) (i : Fin cfg.signals.length) :
    Option SignalAssessment :=
  let cur := (sums.counts i).toFloat / sums.total.toFloat
  let bl := sc.baseline i
  let ratio := if bl.seeded && bl.value > 0 then cur / bl.value else 0.0
  let anomalous :=
    if !bl.seeded then decide (cur ≥ cfg.coldStartFloor)
    else decide (cur ≥ cfg.absoluteFloor) && decide (cur ≥ bl.value * cfg.surgeFactor)
  if anomalous then some ⟨cfg.signals[i].name, cur, bl.value, ratio⟩ else none

def Scope.assessLocked (sc : Scope cfg) (ep : Int) : Assessment :=
  let sums := sc.windowSums ep
  let signals :=
    if sums.total ≥ cfg.minSamples then
      (List.finRange cfg.signals.length).filterMap (sc.assessSignal sums)
    else []
  let projected := sc.volBaseline.value * cfg.buckets.toFloat
  let velocityRatio :=
    if sc.volBaseline.seeded && projected > 0 then sums.total.toFloat / projected else 0
  let velocitySurge :=
    if sc.volBaseline.seeded then
      decide (sums.total ≥ cfg.velocityMinVolume) &&
        decide (sums.total.toFloat ≥ projected * cfg.velocityFactor)
    else decide (sums.total ≥ cfg.velocityColdVolume)
  ⟨!signals.isEmpty || velocitySurge, signals, velocitySurge, velocityRatio, sums.total⟩

def Assessment.zero : Assessment := ⟨false, [], false, 0, 0⟩

/-! ## The table of cohorts -/

structure ScopeKey where
  tenant : Bytes
  app : Bytes
  build : Bytes
  region : Bytes
deriving DecidableEq

def fnv32a (bs : Bytes) : UInt32 :=
  bs.foldl (fun h b => (h ^^^ b.toUInt32) * 16777619) 2166136261

def shardFor (k : ScopeKey) : Fin shardCount :=
  Fin.ofNat shardCount
    (fnv32a (k.tenant ++ [0] ++ k.app ++ [0] ++ k.build ++ [0] ++ k.region)).toNat

abbrev Shard (cfg : Settings) := Lru ScopeKey (Scope cfg)

/-! ## Snapshots -/

structure ScopeAnomaly where
  tenantID : Bytes
  appID : Bytes
  buildHash : Bytes
  region : Bytes
  assessment : Assessment

def less (a b : ScopeAnomaly) : Bool :=
  if a.tenantID ≠ b.tenantID then decide (a.tenantID < b.tenantID)
  else if a.appID ≠ b.appID then decide (a.appID < b.appID)
  else if a.buildHash ≠ b.buildHash then decide (a.buildHash < b.buildHash)
  else decide (a.region < b.region)

structure Snapshot where
  val : List ScopeAnomaly
  sorted : val.Pairwise fun a b => less b a = false

structure CachedSnapshot where
  time : Int
  snapshot : Snapshot

structure Engine (cfg : Settings) where
  shards : Fin shardCount → Shard cfg
  snap : Option CachedSnapshot

def Engine.new (cfg : Settings) : Engine cfg := ⟨fun _ => Lru.empty, none⟩

def getOrCreateLocked (sh : Shard cfg) (k : ScopeKey) : Shard cfg × Nat :=
  sh.getOrCreate cfg.maxScopesPerShard k Scope.new

def Engine.setShard (e : Engine cfg) (i : Fin shardCount) (sh : Shard cfg) : Engine cfg :=
  { e with shards := Function.update e.shards i sh }

def Engine.observe (e : Engine cfg) (k : ScopeKey) (bits : UInt64) (t : Int) : Engine cfg :=
  let r := getOrCreateLocked (e.shards (shardFor k)) k
  e.setShard (shardFor k) (r.1.modify r.2 fun sc => sc.observeLocked (cfg.epoch t) bits)

def assessElement (sh : Shard cfg) (id : Nat) (ep : Int) : Assessment :=
  match sh.cells[id]? with
  | some e => e.2.assessLocked ep
  | none => .zero

def Engine.observeAndAssessNow (e : Engine cfg) (k : ScopeKey) (bits : UInt64) (now : Int) :
    Engine cfg × Assessment :=
  let r := getOrCreateLocked (e.shards (shardFor k)) k
  let sh := r.1.modify r.2 fun sc => sc.observeLocked (cfg.epoch now) bits
  (e.setShard (shardFor k) sh, assessElement sh r.2 (cfg.epoch now))

def Engine.assess (e : Engine cfg) (k : ScopeKey) (now : Int) : Engine cfg × Assessment :=
  let sh := e.shards (shardFor k)
  match sh.byKey.lookup k with
  | none => (e, .zero)
  | some id =>
    let sh := sh.touch id
    (e.setShard (shardFor k) sh, assessElement sh id (cfg.epoch now))

end Kseal.Fleet
