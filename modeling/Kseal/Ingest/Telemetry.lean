import Kseal.Ingest.EventCodec
import Kseal.Server.Request
import Kseal.Server.Risk

/-!
# Submitted telemetry (`ingest/service.go`, `ingest/broker_kafka.go`)

Parameters (`Env`) are the check of the app, the zstd and protobuf decoders and the quota; so are
the ids and what `Publish` finds when it is called (`Draw`).
-/

namespace Kseal.Ingest

open Infra Wire Server List

/-! ## Messages -/

structure TelemetryEvent where
  eventType : Int32
  riskBits : UInt64
  confidence : Int32
  appBuildHash : String
  policyHash : String
  tenantScopedInstallKeyHash : String
  coarseTimeBucket : Int64
  countryOrRegion : Option String

structure TelemetryBatch where
  events : List (Option TelemetryEvent)
  platform : Int32

inductive Compression where
  | unspecified
  | none
  | zstd
  | unrecognized (n : Int32)
deriving DecidableEq

structure SubmitTelemetryRequest where
  tenantId : String
  appId : String
  compressedBatch : Bytes
  compression : Compression

structure SubmitTelemetryResponse where
  accepted : Int32
  rejected : Int32
  rejectionReason : String
  quotaExceeded : Bool
deriving DecidableEq

/-! ## The stored event -/

def eventTypeUnspecified : Int32 := 0

def layoutServer : UInt8 := 2

def millisCutoffSec : Int64 := 100000000000
def maxClockSkewSec : Int64 := 90000

def normalizeTimeBucketSec (v nowSec : Int64) : Int64 :=
  if v ≤ 0 then nowSec
  else
    let v := if v ≥ millisCutoffSec then v / 1000 else v
    if v > nowSec + maxClockSkewSec then nowSec else v

def derefStr (s : Option String) : String := s.getD ""

def storedEvent (m : SubmitTelemetryRequest) (platform : Int32) (ev : TelemetryEvent) (id : String)
    (now : Int64) : StoredEvent :=
  let serverBits := Risk.fromWire ev.riskBits
  { id := utf8 id
    tenantID := utf8 m.tenantId
    appID := utf8 m.appId
    eventType := ev.eventType
    riskLevel := Int32.ofNat (Risk.level (Risk.score serverBits none) none).toNat
    riskBits := serverBits
    riskBitsLayout := layoutServer
    confidence := ev.confidence
    buildHash := utf8 ev.appBuildHash
    policyHash := utf8 ev.policyHash
    installKeyHash := utf8 ev.tenantScopedInstallKeyHash
    timeBucket := normalizeTimeBucketSec ev.coarseTimeBucket now
    country := utf8 (derefStr ev.countryOrRegion)
    platform := platform
    receivedAt := now }

/-! ## Publishing -/

def errBrokerFull : String := "ingest: broker queue full"

structure PublishState where
  ctxErr : Option String
  inflight : Int64

structure ProducerRecord where
  key : Bytes
  value : Bytes

def publish (producerBufferRecords : Int64) (st : PublishState) (e : StoredEvent) :
    Except String ProducerRecord :=
  match st.ctxErr with
  | some err => .error err
  | none =>
    if st.inflight ≥ producerBufferRecords then .error errBrokerFull
    else .ok ⟨e.tenantID, encodeStoredEvent e⟩

/-! ## The service -/

structure Env where
  valid : String → String → Except String Bool
  decodeAll : Bytes → Except String Bytes
  unmarshal : Bytes → Except String TelemetryBatch
  allow : String → Nat → Except String Bool
  producerBufferRecords : Int64

structure Draw where
  id : String
  st : PublishState

def maxDecompressedBytes : Nat := 16 * 2 ^ 20

def decompress (env : Env) (c : Compression) (data : Bytes) : Except String Bytes :=
  match c with
  | .zstd => do
    let out ← env.decodeAll data
    if out.length > maxDecompressedBytes then .error "payload too large" else .ok out
  | _ => if data.length > maxDecompressedBytes then .error "payload too large" else .ok data

structure Progress where
  accepted : Int32
  rejected : Int32
  published : List (StoredEvent × ProducerRecord)

def Progress.reject (p : Progress) : Progress := { p with rejected := p.rejected + 1 }

def Progress.accept (p : Progress) (stored : StoredEvent) (rec : ProducerRecord) : Progress :=
  { p with accepted := p.accepted + 1, published := p.published ++ [(stored, rec)] }

def submitOne (env : Env) (m : SubmitTelemetryRequest) (platform : Int32) (now : Int64) (draw : Draw)
    (p : Progress) : Option TelemetryEvent → Progress
  | none => p.reject
  | some ev =>
    if ev.eventType = eventTypeUnspecified then p.reject
    else
      let stored := storedEvent m platform ev draw.id now
      match publish env.producerBufferRecords draw.st stored with
      | .error _ => p.reject
      | .ok rec => p.accept stored rec

def submitLoop (env : Env) (m : SubmitTelemetryRequest) (platform : Int32) (now : Int64)
    (draws : Nat → Draw) : Nat → Progress → List (Option TelemetryEvent) → Progress
  | _, p, [] => p
  | i, p, ev :: rest =>
    submitLoop env m platform now draws (i + 1) (submitOne env m platform now (draws i) p ev) rest

def submitTelemetry (env : Env) (ctx : Option Principal) (m : SubmitTelemetryRequest) (now : Int64)
    (draws : Nat → Draw) :
    Except ConnectError (SubmitTelemetryResponse × List (StoredEvent × ProducerRecord)) :=
  if m.tenantId = "" ∨ m.appId = "" then
    .error ⟨.invalidArgument, "tenant_id and app_id required"⟩
  else if enforceTenant ctx m.tenantId = false then
    .error ⟨.unauthenticated, "device credential required"⟩
  else
    match env.valid m.tenantId m.appId with
    | .error e => .error ⟨.internal, e⟩
    | .ok false => .ok (⟨0, 1, "unknown tenant or app", false⟩, [])
    | .ok true =>
      match decompress env m.compression m.compressedBatch with
      | .error _ => .ok (⟨0, 1, "decompression failed", false⟩, [])
      | .ok raw =>
        match env.unmarshal raw with
        | .error _ => .ok (⟨0, 1, "malformed batch", false⟩, [])
        | .ok batch =>
          if batch.events.length = 0 then .ok (⟨0, 0, "", false⟩, [])
          else
            -- An error of the quota store lets the batch through.
            match env.allow m.tenantId batch.events.length with
            | .ok false =>
              .ok (⟨0, Int32.ofNat batch.events.length, "per-tenant quota exceeded", true⟩, [])
            | _ =>
              let p := submitLoop env m batch.platform now draws 0 ⟨0, 0, []⟩ batch.events
              .ok (⟨p.accepted, p.rejected, "", false⟩, p.published)

/-! ## What can be read again -/

def TelemetryEvent.texts (ev : TelemetryEvent) : List String :=
  [ev.appBuildHash, ev.policyHash, ev.tenantScopedInstallKeyHash, derefStr ev.countryOrRegion]

def TextsWithin (unmarshal : Bytes → Except String TelemetryBatch) : Prop :=
  ∀ raw batch, unmarshal raw = .ok batch → ∀ ev, some ev ∈ batch.events → ∀ s ∈ ev.texts,
    (utf8 s).length ≤ raw.length

def sampleEnv (n : Nat) (batch : TelemetryBatch) : Env where
  valid := fun _ _ => .ok true
  decodeAll := fun data => .ok data
  unmarshal := fun raw => if raw.length ≤ n then .error "unexpected EOF" else .ok batch
  allow := fun _ _ => .ok true
  producerBufferRecords := 10000

def sampleEvent (policyHash : String) : TelemetryEvent where
  eventType := 1
  riskBits := 1
  confidence := 3
  appBuildHash := "b"
  policyHash := policyHash
  tenantScopedInstallKeyHash := "k"
  coarseTimeBucket := 1700000000000
  countryOrRegion := some "DE"

def sampleRequest (compressedBatch : Bytes) : SubmitTelemetryRequest :=
  ⟨"t", "a", compressedBatch, .none⟩

def sampleID : String := "123e4567-e89b-12d3-a456-426614174000"

def sampleBatch (policyHash : String) : TelemetryBatch := ⟨[some (sampleEvent policyHash)], 1⟩

theorem textsWithin_sampleEnv {n : Nat} {policyHash : String} (hpolicy : (utf8 policyHash).length ≤ n)
    (hn : 2 ≤ n) : TextsWithin (sampleEnv n (sampleBatch policyHash)).unmarshal := by
  intro raw batch hbatch ev hev s hs
  obtain ⟨hlen, ⟨⟩⟩ := guard_ok hbatch
  cases Option.some.inj (mem_singleton.mp hev)
  have hshort : (utf8 "b").length = 1 ∧ (utf8 "k").length = 1 ∧ (utf8 "DE").length = 2 := by
    decide +kernel
  simp only [TelemetryEvent.texts, sampleEvent, derefStr, Option.getD_some, mem_cons,
    not_mem_nil, or_false] at hs
  rcases hs with rfl | rfl | rfl | rfl <;> omega

def longHash : String := String.ofList (List.replicate (maxEncodedStringLen + 1) 'a')

theorem length_longHash : (utf8 longHash).length = maxEncodedStringLen + 1 := by
  rw [longHash, utf8_ofList]
  simp [show 'a'.utf8Size = 1 from rfl]

def longRequest : SubmitTelemetryRequest :=
  sampleRequest (List.replicate (maxEncodedStringLen + 80) 0)

def longEvent : StoredEvent := storedEvent longRequest 1 (sampleEvent longHash) sampleID 1700000100

theorem decode_longEvent :
    decodeStoredEvent (encodeStoredEvent longEvent) = .error .stringTooLong := by
  have htexts : longEvent.texts =
      [utf8 sampleID, utf8 "t", utf8 "a", utf8 "b", utf8 longHash, utf8 "k", utf8 "DE"] := by
    simp only [longEvent, storedEvent, StoredEvent.texts, longRequest, sampleRequest, sampleEvent,
      derefStr, Option.getD_some]
  have hothers : ∀ s ∈ [sampleID, "t", "a", "b", "k", "DE"], (utf8 s).length < 2 ^ 64 := by
    decide +kernel
  have hlong : (utf8 longHash).length < 2 ^ 64 := by
    rw [length_longHash]
    decide
  rw [decode_encode, if_neg]
  · intro hall
    have hle := hall (utf8 longHash) (by simp [htexts])
    rw [length_longHash] at hle
    omega
  · rw [htexts]
    simp only [forall_mem_cons] at hothers ⊢
    exact ⟨hothers.1, hothers.2.1, hothers.2.2.1, hothers.2.2.2.1, hlong, hothers.2.2.2.2.1,
      hothers.2.2.2.2.2.1, by simp⟩

theorem submitTelemetry_sample {n : Nat} {compressedBatch : Bytes} (policyHash : String)
    (hn : n < compressedBatch.length) (hmax : compressedBatch.length ≤ maxDecompressedBytes) :
    submitTelemetry (sampleEnv n (sampleBatch policyHash)) (some ⟨"t", "device"⟩)
        (sampleRequest compressedBatch) 1700000100 (fun _ => ⟨sampleID, ⟨none, 0⟩⟩) =
      .ok (⟨1, 0, "", false⟩,
        [(storedEvent (sampleRequest compressedBatch) 1 (sampleEvent policyHash) sampleID 1700000100,
          ⟨utf8 "t", encodeStoredEvent (storedEvent (sampleRequest compressedBatch) 1
            (sampleEvent policyHash) sampleID 1700000100)⟩)]) := by
  have hraw : ∀ env : Env, decompress env .none compressedBatch = .ok compressedBatch :=
    fun env => if_neg (Nat.not_lt.mpr hmax)
  have hbatch : (sampleEnv n (sampleBatch policyHash)).unmarshal compressedBatch =
      .ok (sampleBatch policyHash) := if_neg (Nat.not_le.mpr hn)
  have hadmitted : ¬ enforceTenant (some ⟨"t", "device"⟩) "t" = false := by decide
  unfold submitTelemetry sampleRequest
  simp only [hraw, hbatch]
  rfl

end Kseal.Ingest
