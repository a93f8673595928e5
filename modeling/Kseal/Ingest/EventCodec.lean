import Kseal.Infra.Varint

/-!
# Events in the broker (`ingest/event_codec.go`)

Texts are byte strings, and enumerations are numbers. The encoder writes texts of any length; the
decoder gives up on one of more than `maxEncodedStringLen` bytes (`decode_encode`).
-/

namespace Kseal.Ingest

open Infra List

structure StoredEvent where
  id : Bytes
  tenantID : Bytes
  appID : Bytes
  eventType : Int32
  riskLevel : Int32
  riskBits : UInt64
  riskBitsLayout : UInt8
  confidence : Int32
  buildHash : Bytes
  policyHash : Bytes
  installKeyHash : Bytes
  timeBucket : Int64
  country : Bytes
  platform : Int32
  receivedAt : Int64
deriving DecidableEq

inductive CodecError where
  | truncatedEvent
  | badEventVersion
  | stringTooLong
  | trailingGarbage
deriving Repr, DecidableEq

def eventCodecVersion : UInt8 := 2
def eventCodecVersionV1 : UInt8 := 1

def maxEncodedStringLen : Nat := 2 ^ 20

def maxInt : Nat := 2 ^ 63 - 1

/-! ## The encoder -/

def appendString (s : Bytes) : Bytes := uvarintBytes (UInt64.ofNat s.length) ++ s

def encodeStoredEvent (e : StoredEvent) : Bytes :=
  eventCodecVersion :: (appendString e.id ++ (appendString e.tenantID ++ (appendString e.appID ++
    (varintBytes e.eventType.toInt64 ++ (varintBytes e.riskLevel.toInt64 ++
    (uvarintBytes e.riskBits ++ (uvarintBytes e.riskBitsLayout.toUInt64 ++
    (varintBytes e.confidence.toInt64 ++ (appendString e.buildHash ++ (appendString e.policyHash ++
    (appendString e.installKeyHash ++ (varintBytes e.timeBucket ++ (appendString e.country ++
    (varintBytes e.platform.toInt64 ++ varintBytes e.receivedAt))))))))))))))

/-! ## The decoder -/

structure Decoder where
  b : Bytes
  err : Option CodecError

def Decoder.uvarint (d : Decoder) : UInt64 × Decoder :=
  if d.err.isSome then (0, d)
  else
    let (v, n) := Infra.uvarint d.b
    if n ≤ 0 then (0, { d with err := some .truncatedEvent })
    else (v, { d with b := d.b.drop n.toNat })

def Decoder.varint (d : Decoder) : Int64 × Decoder :=
  if d.err.isSome then (0, d)
  else
    let (v, n) := Infra.varint d.b
    if n ≤ 0 then (0, { d with err := some .truncatedEvent })
    else (v, { d with b := d.b.drop n.toNat })

def Decoder.string (d : Decoder) : Bytes × Decoder :=
  let (n, d) := d.uvarint
  if d.err.isSome then ([], d)
  else if n.toNat > maxEncodedStringLen then ([], { d with err := some .stringTooLong })
  else if d.b.length < n.toNat then ([], { d with err := some .truncatedEvent })
  else if n.toNat > maxInt then ([], { d with err := some .stringTooLong })
  else (d.b.take n.toNat, { d with b := d.b.drop n.toNat })

def Decoder.layout (d : Decoder) (ver : UInt8) : UInt8 × Decoder :=
  if ver ≥ eventCodecVersion then (d.uvarint.1.toUInt8, d.uvarint.2) else (0, d)

def decodeStoredEvent : Bytes → Except CodecError StoredEvent
  | [] => .error .truncatedEvent
  | ver :: b =>
    if ver ≠ eventCodecVersion ∧ ver ≠ eventCodecVersionV1 then .error .badEventVersion
    else
      let d : Decoder := ⟨b, none⟩
      let (id, d) := d.string
      let (tenantID, d) := d.string
      let (appID, d) := d.string
      let (eventType, d) := d.varint
      let (riskLevel, d) := d.varint
      let (riskBits, d) := d.uvarint
      let (riskBitsLayout, d) := d.layout ver
      let (confidence, d) := d.varint
      let (buildHash, d) := d.string
      let (policyHash, d) := d.string
      let (installKeyHash, d) := d.string
      let (timeBucket, d) := d.varint
      let (country, d) := d.string
      let (platform, d) := d.varint
      let (receivedAt, d) := d.varint
      match d.err with
      | some err => .error err
      | none =>
        if d.b.length ≠ 0 then .error .trailingGarbage
        else
          .ok
            { id := id
              tenantID := tenantID
              appID := appID
              eventType := eventType.toInt32
              riskLevel := riskLevel.toInt32
              riskBits := riskBits
              riskBitsLayout := riskBitsLayout
              confidence := confidence.toInt32
              buildHash := buildHash
              policyHash := policyHash
              installKeyHash := installKeyHash
              timeBucket := timeBucket
              country := country
              platform := platform.toInt32
              receivedAt := receivedAt }

/-! ## Reading what was written -/

section reads

variable (rest : Bytes) (b : Bytes) (err : CodecError)

@[simp] theorem uvarint_failed : (⟨b, some err⟩ : Decoder).uvarint = (0, ⟨b, some err⟩) := rfl

@[simp] theorem varint_failed : (⟨b, some err⟩ : Decoder).varint = (0, ⟨b, some err⟩) := rfl

@[simp] theorem string_failed : (⟨b, some err⟩ : Decoder).string = ([], ⟨b, some err⟩) := rfl

@[simp] theorem layout_failed (ver : UInt8) :
    (⟨b, some err⟩ : Decoder).layout ver = (0, ⟨b, some err⟩) := by
  unfold Decoder.layout
  split <;> rfl

@[simp] theorem uvarint_written (x : UInt64) :
    (⟨uvarintBytes x ++ rest, none⟩ : Decoder).uvarint = (x, ⟨rest, none⟩) := by
  have hpos := length_uvarintBytes_pos x
  unfold Decoder.uvarint
  rw [uvarint_append, if_neg (by simp)]
  dsimp only
  rw [if_neg (by omega), Int.toNat_natCast, drop_left]

@[simp] theorem varint_written (x : Int64) :
    (⟨varintBytes x ++ rest, none⟩ : Decoder).varint = (x, ⟨rest, none⟩) := by
  have hpos : 0 < (varintBytes x).length := length_uvarintBytes_pos _
  unfold Decoder.varint
  rw [varint_append, if_neg (by simp)]
  dsimp only
  rw [if_neg (by omega), Int.toNat_natCast, drop_left]

@[simp] theorem layout_written (x : UInt8) :
    (⟨uvarintBytes x.toUInt64 ++ rest, none⟩ : Decoder).layout eventCodecVersion =
      (x, ⟨rest, none⟩) := by
  unfold Decoder.layout
  simp

theorem string_written {s : Bytes} (hs : s.length < 2 ^ 64) :
    (⟨appendString s ++ rest, none⟩ : Decoder).string =
      if s.length ≤ maxEncodedStringLen then (s, ⟨rest, none⟩)
      else ([], ⟨s ++ rest, some .stringTooLong⟩) := by
  have hlen : (UInt64.ofNat s.length).toNat = s.length := by
    exact Nat.mod_eq_of_lt hs
  unfold Decoder.string appendString
  rw [append_assoc, uvarint_written]
  dsimp only
  rw [hlen]
  by_cases hshort : s.length ≤ maxEncodedStringLen
  · have hint : ¬ s.length > maxInt := by
      unfold maxEncodedStringLen at hshort
      unfold maxInt
      omega
    rw [if_pos hshort, if_neg (by simp), if_neg (by omega), if_neg (by simp), if_neg hint,
      take_left, drop_left]
  · rw [if_neg hshort, if_neg (by simp), if_pos (by omega)]

end reads

def StoredEvent.texts (e : StoredEvent) : List Bytes :=
  [e.id, e.tenantID, e.appID, e.buildHash, e.policyHash, e.installKeyHash, e.country]

/-- **An event is decoded again exactly if none of its texts is too long.** -/
theorem decode_encode (e : StoredEvent) (he : ∀ s ∈ e.texts, s.length < 2 ^ 64) :
    decodeStoredEvent (encodeStoredEvent e) =
      if ∀ s ∈ e.texts, s.length ≤ maxEncodedStringLen then .ok e else .error .stringTooLong := by
  simp only [StoredEvent.texts, forall_mem_cons, not_mem_nil, false_imp_iff,
    implies_true, and_true] at he ⊢
  obtain ⟨hid, htenant, happ, hbuild, hpolicy, hinstall, hcountry⟩ := he
  have hlast : (⟨varintBytes e.receivedAt, none⟩ : Decoder).varint = (e.receivedAt, ⟨[], none⟩) := by
    simpa using varint_written [] e.receivedAt
  have hid := fun rest => string_written rest hid
  have htenant := fun rest => string_written rest htenant
  have happ := fun rest => string_written rest happ
  have hbuild := fun rest => string_written rest hbuild
  have hpolicy := fun rest => string_written rest hpolicy
  have hinstall := fun rest => string_written rest hinstall
  have hcountry := fun rest => string_written rest hcountry
  unfold decodeStoredEvent encodeStoredEvent
  -- The first text that is too long ends the reading.
  by_cases h₁ : e.id.length ≤ maxEncodedStringLen
  · by_cases h₂ : e.tenantID.length ≤ maxEncodedStringLen
    · by_cases h₃ : e.appID.length ≤ maxEncodedStringLen
      · by_cases h₄ : e.buildHash.length ≤ maxEncodedStringLen
        · by_cases h₅ : e.policyHash.length ≤ maxEncodedStringLen
          · by_cases h₆ : e.installKeyHash.length ≤ maxEncodedStringLen
            · by_cases h₇ : e.country.length ≤ maxEncodedStringLen
              · simp [*]
              · simp [*]
            · simp [*]
          · simp [*]
        · simp [*]
      · simp [*]
    · simp [*]
  · simp [*]

end Kseal.Ingest
