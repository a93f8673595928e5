import Kseal.Ingest.EventPages
import Kseal.Server.Request
import Kseal.Server.Risk

/-!
# The query service (`data-plane/query/service.go`)

Bounds in milliseconds are cut to seconds, toward zero, before the store compares them with time
buckets, and a bound of zero seconds is no bound (`time_filter_iff`).
-/

namespace Kseal.Ingest

open Infra Server List Keyset

/-! ## The service -/

structure ListEventsRequest where
  tenantId : String
  appId : Bytes
  eventTypes : List Int32
  riskLevels : List Int32
  /-- Unix milliseconds; zero is no bound. -/
  startTime : Int64
  endTime : Int64
  pageSize : Int32
  pageToken : Bytes

structure EventRecord where
  id : Bytes
  tenantId : Bytes
  appId : Bytes
  eventType : Int32
  riskLevel : Int32
  riskBits : UInt64
  confidence : Int32
  appBuildHash : Bytes
  policyHash : Bytes
  timestamp : Int64
  countryOrRegion : Option Bytes
deriving DecidableEq

structure ListEventsResponse where
  events : List EventRecord
  nextPageToken : Bytes
deriving DecidableEq

inductive QueryError where
  | auth (e : ConnectError)
  | invalidArgument (e : CursorError)
deriving DecidableEq

def layoutWire : UInt8 := 1

def normalizeStored (bits : UInt64) (layout : UInt8) : UInt64 :=
  if layout = layoutWire then Risk.fromWire bits else bits

def requireTenant (ctx : Option Principal) (bodyTenant : String) : Except ConnectError String :=
  match tenantFrom ctx with
  | none => .error ⟨.unauthenticated, "missing tenant context"⟩
  | some tenant =>
    if bodyTenant ≠ "" ∧ bodyTenant ≠ tenant then
      .error ⟨.permissionDenied, "cross-tenant request denied"⟩
    else .ok tenant

def millisToSec (ms : Int64) : Int64 := if ms = 0 then 0 else ms / 1000

def toEventRecord (e : StoredEvent) : EventRecord where
  id := e.id
  tenantId := e.tenantID
  appId := e.appID
  eventType := e.eventType
  riskLevel := e.riskLevel
  riskBits := normalizeStored e.riskBits e.riskBitsLayout
  confidence := e.confidence
  appBuildHash := e.buildHash
  policyHash := e.policyHash
  timestamp := e.timeBucket * 1000
  countryOrRegion := if e.country ≠ [] then some e.country else none

def requestQuery (tenant : String) (m : ListEventsRequest) : Query where
  tenantID := utf8 tenant
  appID := m.appId
  eventTypes := m.eventTypes
  riskLevels := m.riskLevels
  policyHash := []
  fromTime := millisToSec m.startTime
  toTime := millisToSec m.endTime

def queryListEvents (events : List StoredEvent) (ctx : Option Principal) (m : ListEventsRequest) :
    Except QueryError ListEventsResponse := do
  let tenant ← (requireTenant ctx m.tenantId).mapError .auth
  let page ← (listEvents events (requestQuery tenant m) m.pageSize.toInt m.pageToken).mapError
    .invalidArgument
  return ⟨page.events.map toEventRecord, page.nextCursor⟩

/-! ## What the page tokens lead to -/

inductive PageToken (events : List StoredEvent) (ctx : Option Principal) (m : ListEventsRequest) :
    Bytes → Prop
  | first : PageToken events ctx m []
  | next {token : Bytes} {resp : ListEventsResponse} (h : PageToken events ctx m token)
      (hresp : queryListEvents events ctx { m with pageToken := token } = .ok resp)
      (hne : resp.nextPageToken ≠ []) : PageToken events ctx m resp.nextPageToken

def Reachable (events : List StoredEvent) (ctx : Option Principal) (m : ListEventsRequest)
    (r : EventRecord) : Prop :=
  ∃ token resp, PageToken events ctx m token ∧
    queryListEvents events ctx { m with pageToken := token } = .ok resp ∧ r ∈ resp.events

section reachable

variable {events : List StoredEvent} {ctx : Option Principal} {m : ListEventsRequest}
  {tenant : String}

variable (events) in
theorem queryListEvents_eq (htenant : requireTenant ctx m.tenantId = .ok tenant) {token : Bytes}
    {cur : Option (Int64 × Bytes)} (hcur : decodeCursor token = .ok cur) :
    queryListEvents events ctx { m with pageToken := token } =
      .ok ⟨(page StoredEvent.key (events.filter (requestQuery tenant m).matches)
          (pageLimit m.pageSize.toInt) (cur.map pageKey)).events.map toEventRecord,
        (ofKeysetPage (page StoredEvent.key (events.filter (requestQuery tenant m).matches)
          (pageLimit m.pageSize.toInt) (cur.map pageKey))).nextCursor⟩ := by
  have hpage := listEvents_eq events (requestQuery tenant m) m.pageSize.toInt hcur
  unfold queryListEvents
  rw [htenant]
  show ((listEvents events (requestQuery tenant m) m.pageSize.toInt token).mapError
    QueryError.invalidArgument >>= _) = _
  rw [hpage]
  rfl

theorem PageToken.decodes (htenant : requireTenant ctx m.tenantId = .ok tenant) {token : Bytes}
    (h : PageToken events ctx m token) : ∃ cur, decodeCursor token = .ok cur := by
  induction h with
  | first => exact ⟨none, rfl⟩
  | next _ hresp hne ih =>
    obtain ⟨cur, hcur⟩ := ih
    rw [queryListEvents_eq events htenant hcur] at hresp
    cases hresp
    obtain ⟨e, he⟩ := Option.ne_none_iff_exists'.mp (ofKeysetPage_nextCursor.1.not.mp hne)
    refine ⟨some (e.timeBucket, e.id), ?_⟩
    rw [ofKeysetPage_nextCursor.2 e he, decodeCursor_encodeCursor]

/-- **The page tokens lead to the records of the events that the store selects.** -/
theorem reachable_iff (hdistinct : DistinctPairs events)
    (htenant : requireTenant ctx m.tenantId = .ok tenant) (r : EventRecord) :
    Reachable events ctx m r ↔
      ∃ e ∈ events, (requestQuery tenant m).matches e = true ∧ r = toEventRecord e := by
  have hkeys := hdistinct.keys (requestQuery tenant m)
  have hlimit := pageLimit_pos m.pageSize.toInt
  constructor
  · rintro ⟨token, resp, htoken, hresp, hr⟩
    obtain ⟨cur, hcur⟩ := htoken.decodes htenant
    rw [queryListEvents_eq events htenant hcur] at hresp
    cases hresp
    obtain ⟨e, he, rfl⟩ := mem_map.mp hr
    obtain ⟨hmem, hmatch⟩ := mem_filter.mp
      (((page_spec hkeys hlimit (cur.map pageKey)).mem_iff e).mp he).1
    exact ⟨e, hmem, hmatch, rfl⟩
  · rintro ⟨e, he, hmatch, rfl⟩
    -- From any token above the event the pages lead to it.
    have hall : ∀ (key : Option (ℤ ×ₗ List ℕ)) token cur, PageToken events ctx m token →
        decodeCursor token = .ok cur → cur.map pageKey = key →
        Below StoredEvent.key key e → Reachable events ctx m (toEventRecord e) := by
      refine page_induction hkeys hlimit ?_
      intro key ih token cur htoken hcur hkey hbelow
      have hresp := queryListEvents_eq events htenant hcur
      rw [hkey] at hresp
      rcases (page_spec hkeys hlimit key).mem_or_below (mem_filter.mpr ⟨he, hmatch⟩)
        hbelow with hmem | ⟨last, hlast, hlt⟩
      · exact ⟨token, _, htoken, hresp, mem_map_of_mem hmem⟩
      · have hcursor := ofKeysetPage_nextCursor.2 last hlast
        refine ih last hlast _ (some (last.timeBucket, last.id)) (htoken.next hresp ?_) ?_ rfl hlt
        · exact fun hnil => encodeCursor_ne_nil _ _ (hcursor ▸ hnil)
        · rw [hcursor, decodeCursor_encodeCursor]
    exact hall none [] none .first rfl rfl nofun

end reachable

/-! ## Bounds in milliseconds and in seconds -/

structure Selected (tenant : Bytes) (m : ListEventsRequest) (r : EventRecord) : Prop where
  tenant : r.tenantId = tenant
  app : m.appId = [] ∨ r.appId = m.appId
  type : m.eventTypes = [] ∨ r.eventType ∈ m.eventTypes
  level : m.riskLevels = [] ∨ r.riskLevel ∈ m.riskLevels
  start : m.startTime = 0 ∨ m.startTime ≤ r.timestamp
  stop : m.endTime = 0 ∨ r.timestamp ≤ m.endTime

structure Candidate (tenant : Bytes) (m : ListEventsRequest) (e : StoredEvent) : Prop where
  tenant : e.tenantID = tenant
  app : m.appId = [] ∨ e.appID = m.appId
  type : m.eventTypes = [] ∨ e.eventType ∈ m.eventTypes
  level : m.riskLevels = [] ∨ e.riskLevel ∈ m.riskLevels

def StartGap (start bucket : Int) : Prop :=
  (0 < start ∧ start < 1000 ∧ bucket ≤ 0) ∨
  (1000 ≤ start ∧ start % 1000 ≠ 0 ∧ bucket = start / 1000) ∨
  (-1000 < start ∧ start < 0 ∧ bucket < 0)

def EndGap (stop bucket : Int) : Prop :=
  (0 < stop ∧ stop < 1000 ∧ 0 < bucket) ∨
  (stop ≤ -1000 ∧ stop % 1000 ≠ 0 ∧ bucket = -(-stop / 1000)) ∨
  (-1000 < stop ∧ stop < 0 ∧ 0 ≤ bucket)

def maxBucket : Int := 9223372036854775

/--
The bounds select the bucket in seconds just if they do so in milliseconds. Outside of
`maxBucket` the milliseconds wrap around.
-/
def TimeExact (start stop bucket : Int) : Prop :=
  let millis := (bucket * 1000).bmod (2 ^ 64)
  let inside := (start = 0 ∨ start ≤ millis) ∧ (stop = 0 ∨ millis ≤ stop)
  (maxBucket < bucket → ((-1000 < stop ∧ stop < 1000) ↔ inside)) ∧
  (bucket < -maxBucket → ((-1000 < start ∧ start < 1000) ↔ inside)) ∧
  (-maxBucket ≤ bucket → bucket ≤ maxBucket →
    ¬ (StartGap start bucket ∧ (stop = 0 ∨ bucket * 1000 ≤ stop ∨ EndGap stop bucket)) ∧
    ¬ (EndGap stop bucket ∧ (start = 0 ∨ start ≤ bucket * 1000 ∨ StartGap start bucket)))

instance (start bucket : Int) : Decidable (StartGap start bucket) :=
  inferInstanceAs (Decidable (_ ∨ _ ∨ _))

instance (stop bucket : Int) : Decidable (EndGap stop bucket) :=
  inferInstanceAs (Decidable (_ ∨ _ ∨ _))

instance (start stop bucket : Int) : Decidable (TimeExact start stop bucket) :=
  inferInstanceAs (Decidable (_ ∧ _ ∧ _))

def secondsOf (ms : Int) : Int := if 0 ≤ ms then ms / 1000 else -(-ms / 1000)

theorem toInt_millisToSec (ms : Int64) : (millisToSec ms).toInt = secondsOf ms.toInt := by
  have hdiv : (millisToSec ms).toInt = ms.toInt.tdiv 1000 := by
    unfold millisToSec
    split
    · next hzero =>
      rw [hzero]
      rfl
    · exact Int64.toInt_div_of_ne_right ms 1000 (by decide)
  rw [hdiv, secondsOf]
  split
  · next hpos => exact Int.tdiv_eq_ediv_of_nonneg hpos
  · next hneg =>
    have hflip := Int.neg_tdiv (-ms.toInt) 1000
    rw [Int.neg_neg] at hflip
    rw [hflip, Int.tdiv_eq_ediv_of_nonneg (by omega)]

theorem secondsOf_eq_zero_iff (ms : Int) : secondsOf ms = 0 ↔ -1000 < ms ∧ ms < 1000 := by
  unfold secondsOf
  split <;> omega

theorem start_seconds_iff (start bucket : Int) :
    (secondsOf start = 0 ∨ secondsOf start ≤ bucket) ↔
      (start = 0 ∨ start ≤ bucket * 1000) ∨ StartGap start bucket := by
  unfold secondsOf StartGap
  split <;> omega

theorem stop_seconds_iff (stop bucket : Int) :
    (secondsOf stop = 0 ∨ bucket ≤ secondsOf stop) ↔
      (stop = 0 ∨ bucket * 1000 ≤ stop) ∨ EndGap stop bucket := by
  unfold secondsOf EndGap
  split <;> omega

variable {start bucket : Int}

theorem StartGap.outside (h : StartGap start bucket) :
    ¬ (start = 0 ∨ start ≤ bucket * 1000) := by
  unfold StartGap at h
  omega

variable {stop : Int}

theorem EndGap.outside (h : EndGap stop bucket) :
    ¬ (stop = 0 ∨ bucket * 1000 ≤ stop) := by
  unfold EndGap at h
  omega

def InSeconds (start stop bucket : Int) : Prop :=
  (secondsOf start = 0 ∨ secondsOf start ≤ bucket) ∧ (secondsOf stop = 0 ∨ bucket ≤ secondsOf stop)

theorem inSeconds_of_large (hstart : start < 2 ^ 63) (hstop : stop < 2 ^ 63)
    (h : maxBucket < bucket) : InSeconds start stop bucket ↔ -1000 < stop ∧ stop < 1000 := by
  unfold maxBucket at h
  have hlow : secondsOf start ≤ bucket := by
    unfold secondsOf
    split <;> omega
  have hhigh : ¬ bucket ≤ secondsOf stop := by
    unfold secondsOf
    split <;> omega
  simp only [InSeconds, hlow, hhigh, secondsOf_eq_zero_iff, or_true, or_false, true_and]

theorem inSeconds_of_small (hstart : -2 ^ 63 ≤ start) (hstop : -2 ^ 63 ≤ stop)
    (h : bucket < -maxBucket) :
    InSeconds start stop bucket ↔ -1000 < start ∧ start < 1000 := by
  unfold maxBucket at h
  have hlow : ¬ secondsOf start ≤ bucket := by
    unfold secondsOf
    split <;> omega
  have hhigh : bucket ≤ secondsOf stop := by
    unfold secondsOf
    split <;> omega
  simp only [InSeconds, hlow, hhigh, secondsOf_eq_zero_iff, or_true, or_false, and_true]

theorem gaps_iff {low high lowGap highGap : Prop} (hlow : lowGap → ¬ low) (hhigh : highGap → ¬ high) :
    (¬ (lowGap ∧ (high ∨ highGap)) ∧ ¬ (highGap ∧ (low ∨ lowGap))) ↔
      (((low ∨ lowGap) ∧ (high ∨ highGap)) ↔ (low ∧ high)) := by
  by_cases hl : lowGap
  · by_cases hh : highGap
    · simp [hh, hlow hl]
    · simp [hh, hlow hl]
  · by_cases hh : highGap
    · simp [hh, hhigh hh]
    · simp [hl, hh]

/-- **What `TimeExact` says**, for bounds of 64 bits. -/
theorem timeExact_iff (hstart : -2 ^ 63 ≤ start ∧ start < 2 ^ 63)
    (hstop : -2 ^ 63 ≤ stop ∧ stop < 2 ^ 63) :
    TimeExact start stop bucket ↔
      (InSeconds start stop bucket ↔
        (start = 0 ∨ start ≤ (bucket * 1000).bmod (2 ^ 64)) ∧
          (stop = 0 ∨ (bucket * 1000).bmod (2 ^ 64) ≤ stop)) := by
  have hmax : maxBucket = 9223372036854775 := rfl
  unfold TimeExact
  by_cases hlarge : maxBucket < bucket
  · have hsmall : ¬ bucket < -maxBucket := by omega
    have hfits : ¬ bucket ≤ maxBucket := by omega
    rw [inSeconds_of_large hstart.2 hstop.2 hlarge]
    simp only [hlarge, hsmall, hfits, true_imp_iff, false_imp_iff, imp_true_iff, and_true]
  · by_cases hsmall : bucket < -maxBucket
    · have hfits : ¬ -maxBucket ≤ bucket := by omega
      rw [inSeconds_of_small hstart.1 hstop.1 hsmall]
      simp only [hlarge, hsmall, hfits, true_imp_iff, false_imp_iff, and_true, true_and]
    · have hwrap : (bucket * 1000).bmod (2 ^ 64) = bucket * 1000 :=
        Int.bmod_eq_of_le (by omega) (by omega)
      have hlow : -maxBucket ≤ bucket := by omega
      have hhigh : bucket ≤ maxBucket := by omega
      have hgaps := gaps_iff (fun h : StartGap start bucket => h.outside)
        (fun h : EndGap stop bucket => h.outside)
      simp only [hlarge, hsmall, hlow, hhigh, false_imp_iff, true_imp_iff, true_and, hwrap,
        InSeconds, start_seconds_iff, stop_seconds_iff]
      rw [← hgaps, or_assoc, or_assoc]

/-! ## What a request asks for -/

section filter

variable {events : List StoredEvent} {ctx : Option Principal} {m : ListEventsRequest}
  {tenant : String}

theorem tenant_ne_empty {bodyTenant : String} (h : requireTenant ctx bodyTenant = .ok tenant) :
    utf8 tenant ≠ [] := by
  intro hnil
  have hempty : tenant = "" := utf8_injective (hnil.trans (by decide +kernel))
  unfold requireTenant tenantFrom at h
  cases ctx with
  | none => cases h
  | some p =>
    rw [Option.bind_some] at h
    split at h
    · cases h
    · next htenant =>
      split at h
      · cases h
      · cases h
        split at htenant
        · cases htenant
        · next hne => exact hne ((Option.some.inj htenant).trans hempty)

theorem int64_eq_zero_iff (x : Int64) : x = 0 ↔ x.toInt = 0 := by
  rw [← Int64.toInt_inj]
  rfl

theorem matches_requestQuery (htenant : utf8 tenant ≠ []) (e : StoredEvent) :
    (requestQuery tenant m).matches e = true ↔ Candidate (utf8 tenant) m e ∧
      InSeconds m.startTime.toInt m.endTime.toInt e.timeBucket.toInt := by
  rw [Query.matches_iff, InSeconds, ← toInt_millisToSec, ← toInt_millisToSec]
  simp only [requestQuery, htenant, false_or, true_or, true_and, int64_eq_zero_iff,
    Int64.lt_iff_toInt_lt,
    not_lt]
  constructor
  · rintro ⟨h₁, h₂, h₃, h₄, h₅, h₆⟩
    exact ⟨⟨h₁, h₂, h₅, h₆⟩, h₃, h₄⟩
  · rintro ⟨⟨h₁, h₂, h₅, h₆⟩, h₃, h₄⟩
    exact ⟨h₁, h₂, h₃, h₄, h₅, h₆⟩

theorem selected_toEventRecord (t : Bytes) (e : StoredEvent) :
    Selected t m (toEventRecord e) ↔ Candidate t m e ∧
      (m.startTime.toInt = 0 ∨ m.startTime.toInt ≤ (e.timeBucket.toInt * 1000).bmod (2 ^ 64)) ∧
      (m.endTime.toInt = 0 ∨ (e.timeBucket.toInt * 1000).bmod (2 ^ 64) ≤ m.endTime.toInt) := by
  have hmillis : (toEventRecord e).timestamp.toInt = (e.timeBucket.toInt * 1000).bmod (2 ^ 64) :=
    Int64.toInt_mul e.timeBucket 1000
  rw [← hmillis]
  constructor
  · rintro ⟨h₁, h₂, h₃, h₄, h₅, h₆⟩
    rw [int64_eq_zero_iff, Int64.le_iff_toInt_le] at h₅ h₆
    exact ⟨⟨h₁, h₂, h₃, h₄⟩, h₅, h₆⟩
  · rintro ⟨⟨h₁, h₂, h₃, h₄⟩, h₅, h₆⟩
    rw [← int64_eq_zero_iff, ← Int64.le_iff_toInt_le] at h₅ h₆
    exact ⟨h₁, h₂, h₃, h₄, h₅, h₆⟩

theorem distinctPairs_of_ids (h : (events.map StoredEvent.id).Nodup) : DistinctPairs events := by
  have : (events.map StoredEvent.id) =
      (events.map fun e => (e.timeBucket, e.id)).map Prod.snd := by
    rw [map_map]
    rfl
  rw [this] at h
  exact List.Nodup.of_map _ h

/--
**The pages hold what the request asks for exactly if no event that passes its other filters is
between a bound in milliseconds and the bound in seconds.**
-/
theorem time_filter_iff (hids : (events.map StoredEvent.id).Nodup)
    (htenant : requireTenant ctx m.tenantId = .ok tenant) :
    (∀ r, Reachable events ctx m r ↔
      (∃ e ∈ events, r = toEventRecord e) ∧ Selected (utf8 tenant) m r) ↔
    ∀ e ∈ events, Candidate (utf8 tenant) m e →
      TimeExact m.startTime.toInt m.endTime.toInt e.timeBucket.toInt := by
  have hne := tenant_ne_empty htenant
  have hstart := And.intro m.startTime.le_toInt m.startTime.toInt_lt
  have hstop := And.intro m.endTime.le_toInt m.endTime.toInt_lt
  simp only [reachable_iff (distinctPairs_of_ids hids) htenant]
  constructor
  · intro h e he hcandidate
    rw [timeExact_iff hstart hstop]
    constructor
    · intro hsec
      have hmatch := (matches_requestQuery hne e).mpr ⟨hcandidate, hsec⟩
      exact ((selected_toEventRecord _ e).mp ((h (toEventRecord e)).mp ⟨e, he, hmatch, rfl⟩).2).2
    · intro hmillis
      obtain ⟨e', he', hmatch, hsame⟩ := (h (toEventRecord e)).mpr
        ⟨⟨e, he, rfl⟩, (selected_toEventRecord _ e).mpr ⟨hcandidate, hmillis⟩⟩
      -- The record has the id of its event.
      have heq : e = e' := inj_on_of_nodup_map hids he he' (congrArg EventRecord.id hsame)
      subst heq
      exact ((matches_requestQuery hne e).mp hmatch).2
  · intro h r
    constructor
    · rintro ⟨e, he, hmatch, rfl⟩
      obtain ⟨hcandidate, hsec⟩ := (matches_requestQuery hne e).mp hmatch
      have hmillis := ((timeExact_iff hstart hstop).mp (h e he hcandidate)).mp hsec
      exact ⟨⟨e, he, rfl⟩, (selected_toEventRecord _ e).mpr ⟨hcandidate, hmillis⟩⟩
    · rintro ⟨⟨e, he, rfl⟩, hselected⟩
      obtain ⟨hcandidate, hmillis⟩ := (selected_toEventRecord _ e).mp hselected
      have hsec := ((timeExact_iff hstart hstop).mp (h e he hcandidate)).mpr hmillis
      exact ⟨e, he, (matches_requestQuery hne e).mpr ⟨hcandidate, hsec⟩, rfl⟩

end filter

def sampleListing (startTime endTime : Int64) : ListEventsRequest :=
  ⟨"t", [], [], [], startTime, endTime, 0, []⟩

def samplePrincipal : Principal := ⟨"t", "k"⟩

theorem time_filter_iff_sample :
    requireTenant (some samplePrincipal) "t" = .ok "t" ∧
      ∀ r, Reachable [sampleStored [0x78] 1700000000, sampleStored [0x79] 1699999999]
          (some samplePrincipal) (sampleListing 1700000000000 1700000000999) r ↔
        (∃ e ∈ [sampleStored [0x78] 1700000000, sampleStored [0x79] 1699999999],
          r = toEventRecord e) ∧
        Selected (utf8 "t") (sampleListing 1700000000000 1700000000999) r := by
  have htenant : requireTenant (some samplePrincipal) "t" = .ok "t" := by decide +kernel
  refine ⟨htenant, (time_filter_iff (by decide) htenant).mpr fun e he _ => ?_⟩
  rcases mem_pair.mp he with rfl | rfl
  · decide
  · decide

/-- **An event half a second before the start of the interval is returned.** -/
theorem event_before_start_returned :
    ∃ r, Reachable [sampleStored [0x78] 1700000000] (some samplePrincipal)
        (sampleListing 1700000000500 0) r ∧
      r.timestamp = 1700000000000 ∧ ¬ Selected (utf8 "t") (sampleListing 1700000000500 0) r := by
  have htenant : requireTenant (some samplePrincipal) "t" = .ok "t" := by decide +kernel
  refine ⟨toEventRecord (sampleStored [0x78] 1700000000), ?_, rfl, fun h => ?_⟩
  · exact (reachable_iff (by decide) htenant _).mpr
      ⟨_, mem_singleton_self _, by decide +kernel, rfl⟩
  · exact absurd h.start (by decide)

end Kseal.Ingest
