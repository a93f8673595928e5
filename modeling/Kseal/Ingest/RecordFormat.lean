import Kseal.Infra.Reader
import Kseal.Ingest.EventCodec

/-!
# The set of records the broker's decoder accepts (`ingest/event_codec.go`)

The decoder goes on after an error and looks at it at the end. A reader that stops at the first
error accepts the same records (`decodeStoredEvent_eq_ok`).
-/

namespace Kseal.Ingest

open Infra Infra.Reader List

def layoutUnknown : UInt8 := 0

def encodeStoredEventV1 (e : StoredEvent) : Bytes :=
  eventCodecVersionV1 :: (appendString e.id ++ (appendString e.tenantID ++ (appendString e.appID ++
    (varintBytes e.eventType.toInt64 ++ (varintBytes e.riskLevel.toInt64 ++
    (uvarintBytes e.riskBits ++ (varintBytes e.confidence.toInt64 ++ (appendString e.buildHash ++
    (appendString e.policyHash ++ (appendString e.installKeyHash ++ (varintBytes e.timeBucket ++
    (appendString e.country ++ (varintBytes e.platform.toInt64 ++
    varintBytes e.receivedAt)))))))))))))

/-! ## Errors that stay -/

structure Sticky {α : Type} (f : StateM Decoder α) (r : Reader CodecError α) : Prop where
  failed : ∀ b err, (f ⟨b, some err⟩).2 = ⟨b, some err⟩
  ok : ∀ b v rest, r b = .ok (v, rest) → f ⟨b, none⟩ = (v, ⟨rest, none⟩)
  error : ∀ b err, r b = .error err → (f ⟨b, none⟩).2.err = some err

namespace Sticky

variable {α β : Type} {f : StateM Decoder α} {r : Reader CodecError α}

theorem pure (v : α) : Sticky (Pure.pure v) (Pure.pure v) where
  failed _ _ := rfl
  ok _ _ _ h := by cases h; rfl
  error _ _ h := by cases h

theorem state_of_error (hf : Sticky f r) {b : Bytes} {err : CodecError} (h : r b = .error err) :
    ∃ b', (f ⟨b, none⟩).2 = ⟨b', some err⟩ :=
  ⟨(f ⟨b, none⟩).2.b, by rw [← hf.error b err h]⟩

theorem bind {g : α → StateM Decoder β} {q : α → Reader CodecError β} (hf : Sticky f r)
    (hg : ∀ v, Sticky (g v) (q v)) : Sticky (f >>= g) (r >>= q) where
  failed b err := by
    show (g (f ⟨b, some err⟩).1 (f ⟨b, some err⟩).2).2 = _
    rw [hf.failed b err, (hg _).failed b err]
  ok b w rest h := by
    obtain ⟨⟨v, b'⟩, hv, hw⟩ := bind_eq_ok h
    show g (f ⟨b, none⟩).1 (f ⟨b, none⟩).2 = _
    rw [hf.ok b v b' hv]
    exact (hg v).ok b' w rest hw
  error b err h := by
    show (g (f ⟨b, none⟩).1 (f ⟨b, none⟩).2).2.err = _
    replace h : (r b >>= fun p => q p.1 p.2) = .error err := h
    cases hr : r b with
    | error err' =>
      rw [hr] at h
      cases h
      obtain ⟨b', hstay⟩ := hf.state_of_error hr
      rw [hstay, (hg _).failed b' err]
    | ok p =>
      rw [hr] at h
      rw [hf.ok b p.1 p.2 hr]
      exact (hg p.1).error p.2 err h

end Sticky

/-! ## Numbers -/

def readNumber {α : Type} (number : Bytes → α × Int) : Reader CodecError α := fun b =>
  if (number b).2 ≤ 0 then .error .truncatedEvent
  else .ok ((number b).1, b.drop (number b).2.toNat)

def readUvarint : Reader CodecError UInt64 := readNumber uvarint
def readVarint : Reader CodecError Int64 := readNumber varint

section numbers

variable {α : Type} {number : Bytes → α × Int}

theorem sticky_number {f : StateM Decoder α} {zero : α}
    (hf : ∀ d, f d = if d.err.isSome then (zero, d)
      else if (number d.b).2 ≤ 0 then (zero, { d with err := some .truncatedEvent })
      else ((number d.b).1, { d with b := d.b.drop (number d.b).2.toNat })) :
    Sticky f (readNumber number) where
  failed b err := by
    rw [hf, if_pos (by simp)]
  ok b v rest h := by
    unfold readNumber at h
    obtain ⟨hn, ⟨⟩⟩ := guard_ok h
    rw [hf, if_neg (by simp), if_neg hn]
  error b err h := by
    unfold readNumber at h
    split at h
    · next hn =>
      cases h
      rw [hf, if_neg (by simp), if_pos hn]
    · cases h

theorem local_number
    (hnumber : ∀ {buf v n}, number buf = (v, n) → 0 < n →
      ∃ taken rest, buf = taken ++ rest ∧ n = (taken.length : Int) ∧
        ∀ rest', number (taken ++ rest') = (v, n)) :
    Local (readNumber number) := by
  intro bs rest v h
  obtain ⟨hn, h⟩ := guard_ok h
  obtain ⟨hv, hrest⟩ := Prod.mk.inj (Except.ok.inj h)
  have hpair : number bs = (v, (number bs).2) := by rw [← hv]
  obtain ⟨taken, rest', hbs, hlen, hread⟩ := hnumber hpair (by omega)
  have hdrop : ∀ more : Bytes, (taken ++ more).drop (number bs).2.toNat = more := by
    intro more
    rw [hlen, Int.toNat_natCast, drop_left]
  refine ⟨taken, ?_, fun more => ?_⟩
  · rw [← hrest]
    nth_rewrite 3 [hbs]
    rw [hdrop, hbs]
  · unfold readNumber
    rw [hread more]
    rw [if_neg hn, hdrop]

end numbers

theorem sticky_uvarint : Sticky Decoder.uvarint readUvarint := sticky_number fun _ => rfl

theorem sticky_varint : Sticky Decoder.varint readVarint := sticky_number fun _ => rfl

theorem local_uvarint : Local readUvarint := local_number uvarint_local

theorem local_varint : Local readVarint := local_number varint_local

/-! ## Texts and the layout -/

def readString : Reader CodecError Bytes := do
  let n ← readUvarint
  if n.toNat > maxEncodedStringLen then throw .stringTooLong
  else Reader.take .truncatedEvent n.toNat

def readLayout (ver : UInt8) : Reader CodecError UInt8 :=
  if ver ≥ eventCodecVersion then do
    let v ← readUvarint
    return v.toUInt8
  else pure layoutUnknown

def Decoder.stringBody (n : UInt64) : StateM Decoder Bytes := fun d =>
  if d.err.isSome then ([], d)
  else if n.toNat > maxEncodedStringLen then ([], { d with err := some .stringTooLong })
  else if d.b.length < n.toNat then ([], { d with err := some .truncatedEvent })
  else if n.toNat > maxInt then ([], { d with err := some .stringTooLong })
  else (d.b.take n.toNat, { d with b := d.b.drop n.toNat })

theorem sticky_stringBody (n : UInt64) :
    Sticky (Decoder.stringBody n) (if n.toNat > maxEncodedStringLen then throw .stringTooLong
      else Reader.take .truncatedEvent n.toNat) where
  failed _ _ := rfl
  ok b v rest h := by
    split at h
    · cases h
    · next hmax =>
      have hint : ¬ n.toNat > maxInt := by
        unfold maxEncodedStringLen at hmax
        unfold maxInt
        omega
      unfold Reader.take at h
      split at h
      · next hle =>
        cases h
        unfold Decoder.stringBody
        rw [if_neg (by simp), if_neg hmax, if_neg (Nat.not_lt.mpr hle), if_neg hint]
      · cases h
  error b err h := by
    unfold Decoder.stringBody
    split at h
    · next hmax =>
      cases h
      rw [if_neg (by simp), if_pos hmax]
    · next hmax =>
      unfold Reader.take at h
      split at h
      · cases h
      · next hle =>
        cases h
        rw [if_neg (by simp), if_neg hmax, if_pos (Nat.lt_of_not_le hle)]

theorem sticky_string : Sticky Decoder.string readString :=
  sticky_uvarint.bind sticky_stringBody

theorem sticky_layout (ver : UInt8) : Sticky (fun d => d.layout ver) (readLayout ver) := by
  unfold Decoder.layout readLayout
  split
  · exact sticky_uvarint.bind fun v => Sticky.pure v.toUInt8
  · exact Sticky.pure layoutUnknown

theorem local_string : Local readString := by
  refine local_uvarint.bind fun n => ?_
  split
  · exact Local.throw _
  · exact local_take _ _

theorem local_layout (ver : UInt8) : Local (readLayout ver) := by
  unfold readLayout
  split
  · exact local_uvarint.bind fun v => Local.pure v.toUInt8
  · exact Local.pure _

theorem yields_string : Yields readString fun s => s.length ≤ maxEncodedStringLen := by
  refine (yields_true _).bind fun n _ => ?_
  intro bs rest s h
  split at h
  · cases h
  · next hmax =>
    unfold Reader.take at h
    split at h
    · cases h
      rw [length_take]
      omega
    · cases h

/-! ## The whole record -/

def decodeFields (ver : UInt8) : StateM Decoder StoredEvent := do
  let id ← Decoder.string
  let tenantID ← Decoder.string
  let appID ← Decoder.string
  let eventType ← Decoder.varint
  let riskLevel ← Decoder.varint
  let riskBits ← Decoder.uvarint
  let riskBitsLayout ← fun d => Decoder.layout d ver
  let confidence ← Decoder.varint
  let buildHash ← Decoder.string
  let policyHash ← Decoder.string
  let installKeyHash ← Decoder.string
  let timeBucket ← Decoder.varint
  let country ← Decoder.string
  let platform ← Decoder.varint
  let receivedAt ← Decoder.varint
  return ⟨id, tenantID, appID, eventType.toInt32, riskLevel.toInt32, riskBits, riskBitsLayout,
    confidence.toInt32, buildHash, policyHash, installKeyHash, timeBucket, country,
    platform.toInt32, receivedAt⟩

def readFields (ver : UInt8) : Reader CodecError StoredEvent := do
  let id ← readString
  let tenantID ← readString
  let appID ← readString
  let eventType ← readVarint
  let riskLevel ← readVarint
  let riskBits ← readUvarint
  let riskBitsLayout ← readLayout ver
  let confidence ← readVarint
  let buildHash ← readString
  let policyHash ← readString
  let installKeyHash ← readString
  let timeBucket ← readVarint
  let country ← readString
  let platform ← readVarint
  let receivedAt ← readVarint
  return ⟨id, tenantID, appID, eventType.toInt32, riskLevel.toInt32, riskBits, riskBitsLayout,
    confidence.toInt32, buildHash, policyHash, installKeyHash, timeBucket, country,
    platform.toInt32, receivedAt⟩

theorem sticky_fields (ver : UInt8) : Sticky (decodeFields ver) (readFields ver) := by
  refine sticky_string.bind fun _ => sticky_string.bind fun _ => sticky_string.bind fun _ => ?_
  refine sticky_varint.bind fun _ => sticky_varint.bind fun _ => sticky_uvarint.bind fun _ => ?_
  refine (sticky_layout ver).bind fun _ => sticky_varint.bind fun _ => ?_
  refine sticky_string.bind fun _ => sticky_string.bind fun _ => sticky_string.bind fun _ => ?_
  refine sticky_varint.bind fun _ => sticky_string.bind fun _ => sticky_varint.bind fun _ => ?_
  exact sticky_varint.bind fun _ => Sticky.pure _

theorem local_fields (ver : UInt8) : Local (readFields ver) := by
  refine local_string.bind fun _ => local_string.bind fun _ => local_string.bind fun _ => ?_
  refine local_varint.bind fun _ => local_varint.bind fun _ => local_uvarint.bind fun _ => ?_
  refine (local_layout ver).bind fun _ => local_varint.bind fun _ => ?_
  refine local_string.bind fun _ => local_string.bind fun _ => local_string.bind fun _ => ?_
  refine local_varint.bind fun _ => local_string.bind fun _ => local_varint.bind fun _ => ?_
  exact local_varint.bind fun _ => Local.pure _

theorem yields_fields (ver : UInt8) :
    Yields (readFields ver) fun e => ∀ s ∈ e.texts, s.length ≤ maxEncodedStringLen := by
  refine yields_string.bind fun _ hid => yields_string.bind fun _ htenant => ?_
  refine yields_string.bind fun _ happ => (yields_true _).bind fun _ _ => ?_
  refine (yields_true _).bind fun _ _ => (yields_true _).bind fun _ _ => ?_
  refine (yields_true _).bind fun _ _ => (yields_true _).bind fun _ _ => ?_
  refine yields_string.bind fun _ hbuild => yields_string.bind fun _ hpolicy => ?_
  refine yields_string.bind fun _ hinstall => (yields_true _).bind fun _ _ => ?_
  refine yields_string.bind fun _ hcountry => (yields_true _).bind fun _ _ => ?_
  refine (yields_true _).bind fun _ _ => Yields.pure ?_
  simp only [StoredEvent.texts, forall_mem_cons, not_mem_nil, false_imp_iff,
    implies_true, and_true]
  exact ⟨hid, htenant, happ, hbuild, hpolicy, hinstall, hcountry⟩

def finishRecord (e : StoredEvent) (d : Decoder) : Except CodecError StoredEvent :=
  match d.err with
  | some err => .error err
  | none => if d.b.length ≠ 0 then .error .trailingGarbage else .ok e

def andThen {α γ : Type} (f : StateM Decoder α) (k : α → Decoder → γ) (d : Decoder) : γ :=
  match f d with
  | (v, d) => k v d

theorem decodeStoredEvent_cons (ver : UInt8) (b : Bytes) :
    decodeStoredEvent (ver :: b) =
      if ver ≠ eventCodecVersion ∧ ver ≠ eventCodecVersionV1 then .error .badEventVersion
      else andThen (decodeFields ver) finishRecord ⟨b, none⟩ := by
  unfold decodeFields
  rfl

/-- **A record is accepted if the reader of its version takes it whole.** -/
theorem decodeStoredEvent_eq_ok {ver : UInt8} {b : Bytes} {e : StoredEvent} :
    decodeStoredEvent (ver :: b) = .ok e ↔
      (ver = eventCodecVersion ∨ ver = eventCodecVersionV1) ∧ readFields ver b = .ok (e, []) := by
  rw [decodeStoredEvent_cons]
  by_cases hver : ver ≠ eventCodecVersion ∧ ver ≠ eventCodecVersionV1
  · rw [if_pos hver]
    refine ⟨nofun, ?_⟩
    rintro ⟨rfl | rfl, -⟩
    · exact absurd rfl hver.1
    · exact absurd rfl hver.2
  · have hver' : ver = eventCodecVersion ∨ ver = eventCodecVersionV1 := by
      by_contra hnone
      exact hver (not_or.mp hnone)
    rw [if_neg hver, and_iff_right hver']
    show finishRecord (decodeFields ver ⟨b, none⟩).1 (decodeFields ver ⟨b, none⟩).2 = _ ↔ _
    unfold finishRecord
    cases hr : readFields ver b with
    | error err =>
      rw [(sticky_fields ver).error b err hr]
      exact ⟨nofun, nofun⟩
    | ok p =>
      rw [(sticky_fields ver).ok b p.1 p.2 hr]
      dsimp only
      split
      · next hne =>
        refine ⟨nofun, fun h => ?_⟩
        cases h
        exact absurd rfl hne
      · next hnil =>
        have hnil : p.2 = [] := length_eq_zero_iff.mp (by simpa using hnil)
        constructor
        · intro h
          cases h
          rw [← hnil]
        · intro h
          cases h
          rfl

def Accepted (record : Bytes) : Prop := ∃ e, decodeStoredEvent record = .ok e

theorem Accepted.reads {record : Bytes} (h : Accepted record) :
    ∃ ver b e, record = ver :: b ∧ readFields ver b = .ok (e, []) := by
  obtain ⟨e, he⟩ := h
  cases record with
  | nil => cases he
  | cons ver b => exact ⟨ver, b, e, rfl, (decodeStoredEvent_eq_ok.mp he).2⟩

/-- **No record is a proper beginning of another.** -/
theorem accepted_prefix_free {record record' : Bytes} (h : Accepted record) (h' : Accepted record')
    (hle : record <+: record') : record = record' := by
  obtain ⟨ver, b, e, rfl, hread⟩ := h.reads
  obtain ⟨ver', b', e', rfl, hread'⟩ := h'.reads
  obtain ⟨rfl, hle'⟩ := cons_prefix_cons.mp hle
  rw [(local_fields ver).prefix_free hread hread' hle']

/-- **An accepted record, encoded anew, is decoded to the same event.** -/
theorem decode_reencoded {record : Bytes} {e : StoredEvent} (h : decodeStoredEvent record = .ok e) :
    decodeStoredEvent (encodeStoredEvent e) = .ok e := by
  cases record with
  | nil => cases h
  | cons ver b =>
    have hshort := yields_fields ver b [] e (decodeStoredEvent_eq_ok.mp h).2
    have hfits : ∀ s ∈ e.texts, s.length < 2 ^ 64 := by
      intro s hs
      have := hshort s hs
      unfold maxEncodedStringLen at this
      omega
    rw [decode_encode e hfits, if_pos hshort]

/-! ## The first version -/

theorem layout_v1 (b : Bytes) :
    (⟨b, none⟩ : Decoder).layout eventCodecVersionV1 = (layoutUnknown, ⟨b, none⟩) := rfl

theorem string_short (rest : Bytes) {s : Bytes} (hs : s.length ≤ maxEncodedStringLen) :
    (⟨appendString s ++ rest, none⟩ : Decoder).string = (s, ⟨rest, none⟩) := by
  have hlen : s.length < 2 ^ 64 := by
    unfold maxEncodedStringLen at hs
    omega
  rw [string_written rest hlen, if_pos hs]

/-- **A record of the first version is decoded with an unknown layout.** -/
theorem decode_encodeV1 (e : StoredEvent) (he : ∀ s ∈ e.texts, s.length ≤ maxEncodedStringLen) :
    decodeStoredEvent (encodeStoredEventV1 e) = .ok { e with riskBitsLayout := layoutUnknown } := by
  simp only [StoredEvent.texts] at he
  have hlast : (⟨varintBytes e.receivedAt, none⟩ : Decoder).varint = (e.receivedAt, ⟨[], none⟩) := by
    simpa using varint_written [] e.receivedAt
  unfold decodeStoredEvent encodeStoredEventV1
  simp [string_short, layout_v1, *]

/-! ## What the decoder accepts -/

/--
**Records are unambiguous.** No record that is accepted is a proper beginning of another, an accepted
record holds an event that is written and read again unchanged, and a record of the first version is
read with an unknown layout.
-/
theorem records_unambiguous :
    (∀ record record' : Bytes, Accepted record → Accepted record' → record <+: record' →
      record = record') ∧
    (∀ (record : Bytes) (e : StoredEvent), decodeStoredEvent record = .ok e →
      decodeStoredEvent (encodeStoredEvent e) = .ok e) ∧
    ∀ e : StoredEvent, (∀ s ∈ e.texts, s.length ≤ maxEncodedStringLen) →
      decodeStoredEvent (encodeStoredEventV1 e) = .ok { e with riskBitsLayout := layoutUnknown } :=
  ⟨fun _ _ => accepted_prefix_free, fun _ _ => decode_reencoded, decode_encodeV1⟩

def sampleRecord : StoredEvent where
  id := [0x65, 0x31]
  tenantID := [0x74]
  appID := [0x61]
  eventType := 3
  riskLevel := -1
  riskBits := 300
  riskBitsLayout := 2
  confidence := 1
  buildHash := []
  policyHash := [0xff]
  installKeyHash := []
  timeBucket := 1700000000
  country := [0x53, 0x47]
  platform := 2
  receivedAt := 1700000123

theorem records_unambiguous_sample :
    decodeStoredEvent (encodeStoredEventV1 sampleRecord) =
        .ok { sampleRecord with riskBitsLayout := layoutUnknown } ∧
      decodeStoredEvent (encodeStoredEvent { sampleRecord with riskBitsLayout := layoutUnknown }) =
        .ok { sampleRecord with riskBitsLayout := layoutUnknown } :=
  have hdecode := records_unambiguous.2.2 sampleRecord (by decide)
  ⟨hdecode, records_unambiguous.2.1 _ _ hdecode⟩

end Kseal.Ingest
