import Kseal.Infra.Bytes
import Kseal.Infra.Result

/-!
# Sealing the secrets of a tenant (`shared/crypto`)

The first four bytes of what is sealed tell the formats apart; under the platform key these are part
of a random nonce (`seal_open_iff`). AES-GCM, HKDF, the KMS and the resolvers are parameters, and so
is what is drawn at random.
-/

namespace Kseal.Crypto

open Infra List

inductive SealError where
  | readRandom (e : String)
  | invalidKEK
  | sealedTooShort
  | openFailed (e : String)
  | resolveTenantCMK (e : String)
  | kmsWrap (e : String)
  | kmsUnwrap (e : String)
  | emptyWrappedDEK
  | wrappedDEKTooLarge (n : Nat)
  | cmkDisabled
  | notCMKEnvelope (detail : String)
  | cmkDecrypt (detail : String)
  | resolveTenantIsolation (e : String)
  | deriveDedicatedKey (e : String)
  | dedicatedDisabled
  | notDedicatedEnvelope (detail : String)
  | indexOutOfRange
deriving Repr, DecidableEq

def SealError.message : SealError → String
  | .readRandom e => "read random: " ++ e
  | .invalidKEK => "crypto: key-encryption key must be 32 bytes"
  | .sealedTooShort => "crypto: sealed value too short"
  | .openFailed e => "open: " ++ e
  | .resolveTenantCMK e => "resolve tenant cmk: " ++ e
  | .kmsWrap e => "kms wrap: " ++ e
  | .kmsUnwrap e => "kms unwrap: " ++ e
  | .emptyWrappedDEK => "crypto: empty wrapped dek"
  | .wrappedDEKTooLarge n => "crypto: wrapped dek too large: " ++ n.repr ++ " bytes"
  | .cmkDisabled => "crypto: cmk-sealed material but cmk is disabled for tenant"
  | .notCMKEnvelope detail => "crypto: expected cmk envelope" ++ detail
  | .cmkDecrypt detail => "crypto: cmk envelope decrypt failed" ++ detail
  | .resolveTenantIsolation e => "resolve tenant isolation: " ++ e
  | .deriveDedicatedKey e => "crypto: derive dedicated key: " ++ e
  | .dedicatedDisabled =>
    "crypto: dedicated-sealed material but dedicated isolation is disabled for tenant"
  | .notDedicatedEnvelope detail => "crypto: expected dedicated envelope" ++ detail
  | .indexOutOfRange => "runtime error: index out of range"

/-! ## The encryptor -/

structure Gcm where
  sealText : Bytes → Bytes → Bytes → Bytes
  openText : Bytes → Bytes → Bytes → Except String Bytes

def nonceSize : Nat := 12

def dekSize : Nat := 32

abbrev RandomBytes (n : Nat) := { b : Bytes // b.length = n }

structure Draws where
  nonce : Except String (RandomBytes nonceSize)
  dek : Except String (RandomBytes dekSize)

structure Encryptor where
  kek : Bytes
  length_kek : kek.length = 32

def newEncryptor (kek : Bytes) : Except SealError Encryptor :=
  if h : kek.length = 32 then .ok ⟨kek, h⟩ else .error .invalidKEK

def Encryptor.seal (gcm : Gcm) (e : Encryptor) (nonce : Except String (RandomBytes nonceSize))
    (plaintext : Bytes) : Except SealError Bytes := do
  let nonce ← nonce.mapError .readRandom
  pure (nonce.val ++ gcm.sealText e.kek nonce.val plaintext)

def Encryptor.open (gcm : Gcm) (e : Encryptor) (sealedText : Bytes) : Except SealError Bytes :=
  if sealedText.length < nonceSize then .error .sealedTooShort
  else
    (gcm.openText e.kek (sealedText.take nonceSize) (sealedText.drop nonceSize)).mapError .openFailed

structure Sealer where
  sealText : Except String (RandomBytes nonceSize) → Bytes → Except SealError Bytes
  openText : Bytes → Except SealError Bytes

def Encryptor.sealer (gcm : Gcm) (e : Encryptor) : Sealer := ⟨e.seal gcm, e.open gcm⟩

/-! ## Envelopes -/

def hasMagic (magic b : Bytes) : Bool := magic.length ≤ b.length && b.take 4 = magic

def cmkMagic : Bytes := ascii "KSC1"
def cmkVersion : UInt8 := 1
def cmkHeaderLen : Nat := 7

def hasCMKMagic (b : Bytes) : Bool := hasMagic cmkMagic b

def encodeCMKEnvelope (wrappedDEK ciphertext : Bytes) : Except SealError Bytes :=
  if wrappedDEK.length = 0 then .error .emptyWrappedDEK
  else if wrappedDEK.length > 0xffff then .error (.wrappedDEKTooLarge wrappedDEK.length)
  else
    .ok (cmkMagic ++ [cmkVersion] ++ u16Be (UInt16.ofNat wrappedDEK.length) ++ wrappedDEK ++ ciphertext)

def decodeCMKEnvelope (b : Bytes) : Except SealError (Bytes × Bytes) :=
  if b.length < cmkHeaderLen then .error (.notCMKEnvelope "")
  else if hasCMKMagic b = false then .error (.notCMKEnvelope "")
  else if b.getD 4 0 ≠ cmkVersion then
    .error (.notCMKEnvelope (": unknown version " ++ (b.getD 4 0).toNat.repr))
  else
    let wrappedLen := ofBe ((b.drop 5).take 2)
    if b.length < cmkHeaderLen + wrappedLen then .error (.cmkDecrypt ": truncated wrapped dek")
    else
      let wrappedDEK := (b.drop cmkHeaderLen).take wrappedLen
      let ciphertext := b.drop (cmkHeaderLen + wrappedLen)
      if ciphertext.length = 0 then .error (.cmkDecrypt ": empty ciphertext")
      else .ok (wrappedDEK, ciphertext)

def dedicatedMagic : Bytes := ascii "KSD1"
def dedicatedVersion : UInt8 := 1
def dedicatedHeaderLen : Nat := 5
def dedicatedInfo : Bytes := ascii "kseal/v1/dedicated-dek"

def hasDedicatedMagic (b : Bytes) : Bool := hasMagic dedicatedMagic b

/-! ## The key managers -/

structure KMSClient where
  wrap : String → Bytes → Except String Bytes
  unwrap : String → Bytes → Except String Bytes

structure CMKKeyManager where
  gcm : Gcm
  platform : Sealer
  kms : KMSClient
  kmsKeyURI : String → Except String (String × Bool)

def CMKKeyManager.sealForTenant (m : CMKKeyManager) (tenantID : String) (draws : Draws)
    (plaintext : Bytes) : Except SealError Bytes := do
  let (keyURI, enabled) ← (m.kmsKeyURI tenantID).mapError .resolveTenantCMK
  if enabled = false then m.platform.sealText draws.nonce plaintext
  else
    let dek ← draws.dek.mapError .readRandom
    let dekEnc ← newEncryptor dek.val
    let ciphertext ← dekEnc.seal m.gcm draws.nonce plaintext
    let wrapped ← (m.kms.wrap keyURI dek.val).mapError .kmsWrap
    encodeCMKEnvelope wrapped ciphertext

def CMKKeyManager.openForTenant (m : CMKKeyManager) (tenantID : String) (sealedText : Bytes) :
    Except SealError Bytes := do
  let (keyURI, enabled) ← (m.kmsKeyURI tenantID).mapError .resolveTenantCMK
  if enabled = false then
    if hasCMKMagic sealedText = true then .error .cmkDisabled else m.platform.openText sealedText
  else
    let (wrapped, ciphertext) ← decodeCMKEnvelope sealedText
    let dek ← (m.kms.unwrap keyURI wrapped).mapError .kmsUnwrap
    if dek.length ≠ dekSize then
      .error (.cmkDecrypt (": unwrapped dek is " ++ dek.length.repr ++ " bytes"))
    else
      let dekEnc ← newEncryptor dek
      (dekEnc.open m.gcm ciphertext).mapError fun e => .cmkDecrypt (": " ++ e.message)

structure DedicatedKeyManager where
  fallback : CMKKeyManager
  kek : Bytes
  hkdf : Bytes → Bytes → Bytes → Except String Bytes
  dedicatedIsolation : String → Except String Bool

def DedicatedKeyManager.tenantEncryptor (m : DedicatedKeyManager) (tenantID : String) :
    Except SealError Encryptor := do
  let key ← (m.hkdf m.kek (utf8 tenantID) dedicatedInfo).mapError .deriveDedicatedKey
  newEncryptor key

def DedicatedKeyManager.sealForTenant (m : DedicatedKeyManager) (tenantID : String) (draws : Draws)
    (plaintext : Bytes) : Except SealError Bytes := do
  let enabled ← (m.dedicatedIsolation tenantID).mapError .resolveTenantIsolation
  if enabled = false then m.fallback.sealForTenant tenantID draws plaintext
  else
    let enc ← m.tenantEncryptor tenantID
    let sealedText ← enc.seal m.fallback.gcm draws.nonce plaintext
    pure (dedicatedMagic ++ [dedicatedVersion] ++ sealedText)

def DedicatedKeyManager.openForTenant (m : DedicatedKeyManager) (tenantID : String)
    (sealedText : Bytes) : Except SealError Bytes := do
  let enabled ← (m.dedicatedIsolation tenantID).mapError .resolveTenantIsolation
  if enabled = false then
    if hasDedicatedMagic sealedText = true then .error .dedicatedDisabled
    else m.fallback.openForTenant tenantID sealedText
  else if hasDedicatedMagic sealedText = false then .error (.notDedicatedEnvelope "")
  else
    match sealedText[4]? with
    | none => .error .indexOutOfRange
    | some version =>
      if version ≠ dedicatedVersion then
        .error (.notDedicatedEnvelope (": unknown version " ++ version.toNat.repr))
      else
        let enc ← m.tenantEncryptor tenantID
        enc.open m.fallback.gcm (sealedText.drop dedicatedHeaderLen)

/-! ## Opening what was sealed -/

def Gcm.Opens (gcm : Gcm) : Prop :=
  ∀ key nonce plaintext : Bytes, key.length = 32 → nonce.length = nonceSize →
    gcm.openText key nonce (gcm.sealText key nonce plaintext) = .ok plaintext

def KMSClient.Unwraps (kms : KMSClient) : Prop :=
  ∀ keyURI dek wrapped, kms.wrap keyURI dek = .ok wrapped → kms.unwrap keyURI wrapped = .ok dek

variable {gcm : Gcm} {e : Encryptor} {plaintext sealedText : Bytes}

variable {draw : Except String (RandomBytes nonceSize)}

theorem Encryptor.seal_eq_ok (h : e.seal gcm draw plaintext = .ok sealedText) :
    ∃ nonce : RandomBytes nonceSize, draw = .ok nonce ∧
      sealedText = nonce.val ++ gcm.sealText e.kek nonce.val plaintext := by
  obtain ⟨nonce, hnonce, h⟩ := bind_eq_ok h
  cases h
  exact ⟨nonce, eq_ok_of_mapError hnonce, rfl⟩

theorem Encryptor.open_seal (hgcm : gcm.Opens) (h : e.seal gcm draw plaintext = .ok sealedText) :
    e.open gcm sealedText = .ok plaintext := by
  obtain ⟨nonce, -, rfl⟩ := Encryptor.seal_eq_ok h
  have hlen := nonce.property
  unfold Encryptor.open
  rw [if_neg (by rw [length_append]; omega), take_left' hlen, drop_left' hlen,
    hgcm _ _ _ e.length_kek hlen]
  rfl

theorem Encryptor.length_seal (h : e.seal gcm draw plaintext = .ok sealedText) :
    nonceSize ≤ sealedText.length := by
  obtain ⟨nonce, -, rfl⟩ := Encryptor.seal_eq_ok h
  rw [length_append]
  omega

theorem hasMagic_append {magic b : Bytes} (rest : Bytes) (hmagic : magic.length = 4)
    (hb : 4 ≤ b.length) : hasMagic magic (b ++ rest) = hasMagic magic b := by
  unfold hasMagic
  rw [take_append_of_le_length hb, length_append, hmagic, decide_eq_true hb,
    decide_eq_true (Nat.le_add_right_of_le hb)]

/-- **The envelope of a wrapped key is read back.** -/
theorem decode_encodeCMKEnvelope {wrapped ciphertext b : Bytes} (hct : ciphertext ≠ [])
    (h : encodeCMKEnvelope wrapped ciphertext = .ok b) :
    decodeCMKEnvelope b = .ok (wrapped, ciphertext) ∧ hasDedicatedMagic b = false := by
  obtain ⟨-, h⟩ := guard_ok h
  obtain ⟨hlarge, ⟨⟩⟩ := guard_ok h
  have hlen : ofBe (u16Be (UInt16.ofNat wrapped.length)) = wrapped.length := by
    rw [u16Be, UInt16.toNat_ofNat', Nat.mod_eq_of_lt (by omega), ofBe_beBytes_of_lt (by omega)]
  obtain ⟨x, y, hxy⟩ : ∃ x y, u16Be (UInt16.ofNat wrapped.length) = [x, y] := ⟨_, _, rfl⟩
  rw [hxy] at hlen ⊢
  have hpos : 0 < ciphertext.length := length_pos_iff.mpr hct
  have hb : cmkMagic ++ [cmkVersion] ++ [x, y] ++ wrapped ++ ciphertext =
      75 :: 83 :: 67 :: 49 :: 1 :: x :: y :: (wrapped ++ ciphertext) := by
    rfl
  rw [hb]
  have hmagic : ∀ magic : Bytes, magic.length = 4 →
      hasMagic magic (75 :: 83 :: 67 :: 49 :: 1 :: x :: y :: (wrapped ++ ciphertext)) =
        hasMagic magic [75, 83, 67, 49] :=
    fun magic hmagic => hasMagic_append (b := [75, 83, 67, 49]) _ hmagic (by decide)
  constructor
  · have hcmk : hasCMKMagic (75 :: 83 :: 67 :: 49 :: 1 :: x :: y :: (wrapped ++ ciphertext)) =
        true := (hmagic cmkMagic (by decide)).trans (by decide)
    have hdrop : (75 :: 83 :: 67 :: 49 :: 1 :: x :: y :: (wrapped ++ ciphertext)).drop
        (cmkHeaderLen + wrapped.length) = ciphertext := by
      rw [← drop_drop]
      exact drop_left
    have hwrapped : ofBe (((75 :: 83 :: 67 :: 49 :: 1 :: x :: y :: (wrapped ++ ciphertext)).drop
        5).take 2) = wrapped.length := hlen
    simp only [decodeCMKEnvelope]
    rw [hwrapped, hdrop, if_neg (by simp [cmkHeaderLen]), if_neg Bool.noConfusion,
      if_neg (by simp [cmkVersion]), if_neg (by simp [cmkHeaderLen]; omega),
      if_neg (Nat.ne_of_gt hpos)]
    show Except.ok ((wrapped ++ ciphertext).take wrapped.length, ciphertext) = _
    rw [take_left]
  · exact (hmagic dedicatedMagic (by decide)).trans (by decide)

/-! ## The three tiers -/

namespace DedicatedKeyManager

variable (m : DedicatedKeyManager) (tenantID : String)

def OnPlatform : Prop :=
  m.dedicatedIsolation tenantID = .ok false ∧
    ∃ keyURI, m.fallback.kmsKeyURI tenantID = .ok (keyURI, false)

def withFallback (platform : Sealer) (kms : KMSClient) : DedicatedKeyManager :=
  { m with fallback := { m.fallback with platform := platform, kms := kms } }

variable {m tenantID}

variable {draws : Draws}

theorem open_seal_dedicated (hgcm : m.fallback.gcm.Opens)
    (htier : m.dedicatedIsolation tenantID = .ok true)
    (h : m.sealForTenant tenantID draws plaintext = .ok sealedText) :
    m.openForTenant tenantID sealedText = .ok plaintext := by
  unfold sealForTenant at h
  rw [htier] at h
  obtain ⟨_, henabled, h⟩ := bind_eq_ok h
  cases henabled
  obtain ⟨enc, henc, h⟩ := bind_eq_ok h
  obtain ⟨inner, hinner, h⟩ := bind_eq_ok h
  cases h
  have hmagic : hasDedicatedMagic (dedicatedMagic ++ [dedicatedVersion] ++ inner) = true :=
    (hasMagic_append inner (by decide) (by decide)).trans (by decide)
  unfold openForTenant
  rw [htier]
  show ((Except.ok true : Except SealError Bool) >>= _) = _
  rw [henc]
  exact Encryptor.open_seal hgcm hinner

theorem open_seal_cmk {keyURI : String} (hgcm : m.fallback.gcm.Opens)
    (hkms : m.fallback.kms.Unwraps) (hshared : m.dedicatedIsolation tenantID = .ok false)
    (htier : m.fallback.kmsKeyURI tenantID = .ok (keyURI, true))
    (h : m.sealForTenant tenantID draws plaintext = .ok sealedText) :
    m.openForTenant tenantID sealedText = .ok plaintext := by
  unfold sealForTenant at h
  rw [hshared] at h
  replace h : m.fallback.sealForTenant tenantID draws plaintext = .ok sealedText := h
  unfold CMKKeyManager.sealForTenant at h
  rw [htier] at h
  obtain ⟨_, henabled, h⟩ := bind_eq_ok h
  cases henabled
  dsimp only at h
  obtain ⟨dek, -, h⟩ := bind_eq_ok h
  obtain ⟨enc, henc, h⟩ := bind_eq_ok h
  obtain ⟨ciphertext, hciphertext, h⟩ := bind_eq_ok h
  obtain ⟨wrapped, hwrapped, h⟩ := bind_eq_ok h
  have hct : ciphertext ≠ [] := by
    have hlen := Encryptor.length_seal hciphertext
    rintro rfl
    exact absurd hlen (by decide)
  obtain ⟨hdecode, hmagic⟩ := decode_encodeCMKEnvelope hct h
  unfold openForTenant
  rw [hshared]
  show ((Except.ok false : Except SealError Bool) >>= _) = _
  rw [ok_bind, if_pos rfl, if_neg (by rw [hmagic]; exact Bool.noConfusion)]
  unfold CMKKeyManager.openForTenant
  rw [htier]
  show ((Except.ok (keyURI, true) : Except SealError (String × Bool)) >>= _) = _
  rw [ok_bind]
  dsimp only
  rw [hdecode, ok_bind]
  rw [hkms keyURI dek.val wrapped (eq_ok_of_mapError hwrapped)]
  show (if dek.val.length ≠ dekSize then _ else _) = _
  rw [if_neg (not_not.mpr dek.property), henc, ok_bind, Encryptor.open_seal hgcm hciphertext]
  rfl

theorem open_seal_platform {e : Encryptor} (plaintext : Bytes) (hgcm : m.fallback.gcm.Opens)
    (hplatform : m.fallback.platform = e.sealer m.fallback.gcm) (htier : m.OnPlatform tenantID)
    {nonce : RandomBytes nonceSize} (hnonce : draws.nonce = .ok nonce) :
    ∃ sealedText, m.sealForTenant tenantID draws plaintext = .ok sealedText ∧
      (m.openForTenant tenantID sealedText = .ok plaintext ↔
        hasDedicatedMagic nonce.val = false ∧ hasCMKMagic nonce.val = false) := by
  obtain ⟨hshared, keyURI, hkey⟩ := htier
  have hseal : m.sealForTenant tenantID draws plaintext =
      e.seal m.fallback.gcm draws.nonce plaintext := by
    unfold sealForTenant CMKKeyManager.sealForTenant
    rw [hshared, hkey, hplatform]
    rfl
  obtain ⟨sealedText, hsealed⟩ : ∃ s, e.seal m.fallback.gcm draws.nonce plaintext = .ok s := by
    rw [hnonce]
    exact ⟨_, rfl⟩
  refine ⟨sealedText, hseal.trans hsealed, ?_⟩
  obtain ⟨nonce', hnonce', hfirst⟩ := Encryptor.seal_eq_ok hsealed
  rw [hnonce] at hnonce'
  cases hnonce'
  have hmagic : ∀ magic : Bytes, magic.length = 4 →
      hasMagic magic sealedText = hasMagic magic nonce.val := by
    intro magic hmagic
    rw [hfirst]
    exact hasMagic_append _ hmagic (by rw [nonce.property]; decide)
  have hopen : m.openForTenant tenantID sealedText =
      if hasDedicatedMagic nonce.val = true then .error .dedicatedDisabled
      else if hasCMKMagic nonce.val = true then .error .cmkDisabled else .ok plaintext := by
    unfold openForTenant CMKKeyManager.openForTenant
    rw [hshared, hkey, hplatform, ← Encryptor.open_seal hgcm hsealed]
    unfold hasDedicatedMagic hasCMKMagic
    rw [← hmagic dedicatedMagic (by decide), ← hmagic cmkMagic (by decide)]
    rfl
  rw [hopen]
  cases hasDedicatedMagic nonce.val <;> cases hasCMKMagic nonce.val <;> simp

theorem platform_unused {keyURI : String}
    (htier : m.fallback.kmsKeyURI tenantID = .ok (keyURI, true)) (platform platform' : Sealer)
    (kms : KMSClient) (draws : Draws) (text : Bytes) :
    (m.withFallback platform kms).sealForTenant tenantID draws text =
        (m.withFallback platform' kms).sealForTenant tenantID draws text ∧
      (m.withFallback platform kms).openForTenant tenantID text =
        (m.withFallback platform' kms).openForTenant tenantID text := by
  unfold sealForTenant openForTenant CMKKeyManager.sealForTenant CMKKeyManager.openForTenant
    withFallback
  rw [htier]
  exact ⟨rfl, rfl⟩

/--
**Sealing and opening**: a tenant can open what was sealed for it exactly if it is on one of the
tiers, or the nonce that was drawn does not begin with the magic of an envelope. For a tenant with a
customer-managed key the platform encryptor makes no difference, whatever the KMS answers.
-/
theorem seal_open_iff (m : DedicatedKeyManager) (e : Encryptor) (tenantID : String) (draws : Draws)
    (plaintext : Bytes) (hgcm : m.fallback.gcm.Opens) (hkms : m.fallback.kms.Unwraps)
    (hplatform : m.fallback.platform = e.sealer m.fallback.gcm) :
    ((∀ sealedText, m.sealForTenant tenantID draws plaintext = .ok sealedText →
        m.openForTenant tenantID sealedText = .ok plaintext) ∧
      ∀ keyURI, m.fallback.kmsKeyURI tenantID = .ok (keyURI, true) →
        ∀ platform platform' kms draws text,
          (m.withFallback platform kms).sealForTenant tenantID draws text =
              (m.withFallback platform' kms).sealForTenant tenantID draws text ∧
            (m.withFallback platform kms).openForTenant tenantID text =
              (m.withFallback platform' kms).openForTenant tenantID text) ↔
      (m.OnPlatform tenantID → ∀ nonce, draws.nonce = .ok nonce →
        hasDedicatedMagic nonce.val = false ∧ hasCMKMagic nonce.val = false) := by
  rw [and_iff_left fun keyURI htier => platform_unused htier]
  constructor
  · intro hround htier nonce hnonce
    obtain ⟨sealedText, hsealed, hopen⟩ :=
      open_seal_platform plaintext hgcm hplatform htier hnonce
    exact hopen.mp (hround sealedText hsealed)
  · intro hnonce sealedText hsealed
    cases hdedicated : m.dedicatedIsolation tenantID with
    | error err =>
      unfold sealForTenant at hsealed
      rw [hdedicated] at hsealed
      cases hsealed
    | ok dedicated =>
      cases dedicated with
      | true => exact open_seal_dedicated hgcm hdedicated hsealed
      | false =>
        cases hkey : m.fallback.kmsKeyURI tenantID with
        | error err =>
          unfold sealForTenant CMKKeyManager.sealForTenant at hsealed
          rw [hdedicated, hkey] at hsealed
          cases hsealed
        | ok answer =>
          obtain ⟨keyURI, enabled⟩ := answer
          cases enabled with
          | true => exact open_seal_cmk hgcm hkms hdedicated hkey hsealed
          | false =>
            have htier : m.OnPlatform tenantID := ⟨hdedicated, keyURI, hkey⟩
            cases hdraw : draws.nonce with
            | error err =>
              unfold sealForTenant CMKKeyManager.sealForTenant at hsealed
              rw [hdedicated, hkey, hplatform, hdraw] at hsealed
              cases hsealed
            | ok nonce =>
              obtain ⟨sealedText', hsealed', hopen⟩ :=
                open_seal_platform plaintext hgcm hplatform htier hdraw
              rw [hsealed] at hsealed'
              cases hsealed'
              exact hopen.mpr (hnonce htier nonce hdraw)

end DedicatedKeyManager

/-! ## A nonce that looks like an envelope -/

def sampleGcm : Gcm where
  sealText := fun _ _ plaintext => plaintext ++ List.replicate 16 0
  openText := fun _ _ ciphertext => .ok (ciphertext.take (ciphertext.length - 16))

def sampleEncryptor : Encryptor := ⟨List.replicate 32 7, rfl⟩

def sampleManager : DedicatedKeyManager where
  fallback :=
    { gcm := sampleGcm
      platform := sampleEncryptor.sealer sampleGcm
      kms := ⟨fun _ dek => .ok dek, fun _ wrapped => .ok wrapped⟩
      kmsKeyURI := fun _ => .ok ("", false) }
  kek := List.replicate 32 7
  hkdf := fun _ _ _ => .ok (List.replicate 32 9)
  dedicatedIsolation := fun _ => .ok false

theorem sampleGcm_opens : sampleGcm.Opens := by
  intro key nonce plaintext _ _
  simp [sampleGcm]

theorem sampleManager_opens :
    sampleManager.OnPlatform "t" ∧ ∀ sealedText,
      sampleManager.sealForTenant "t"
          ⟨.ok ⟨[1, 2, 3, 4, 5, 6, 7, 8, 9, 10, 11, 12], rfl⟩, .error "unused"⟩ [42] =
          .ok sealedText →
        sampleManager.openForTenant "t" sealedText = .ok [42] := by
  refine ⟨⟨rfl, "", rfl⟩, ((DedicatedKeyManager.seal_open_iff sampleManager sampleEncryptor "t"
    ⟨.ok ⟨[1, 2, 3, 4, 5, 6, 7, 8, 9, 10, 11, 12], rfl⟩, .error "unused"⟩ [42] sampleGcm_opens
    (fun _ dek wrapped h => ?_) rfl).mpr ?_).1⟩
  · cases h
    rfl
  · intro _ nonce hnonce
    cases hnonce
    decide

/-- **A nonce that begins with the magic of an envelope**: the tenant cannot open its secret. -/
theorem envelope_nonce_unopened :
    ((sampleManager.sealForTenant "t"
        ⟨.ok ⟨ascii "KSC1" ++ List.replicate 8 0, rfl⟩, .error "unused"⟩ [42]).bind
          (sampleManager.openForTenant "t")) = .error .cmkDisabled ∧
      ((sampleManager.sealForTenant "t"
        ⟨.ok ⟨ascii "KSD1" ++ List.replicate 8 0, rfl⟩, .error "unused"⟩ [42]).bind
          (sampleManager.openForTenant "t")) = .error .dedicatedDisabled := by
  exact ⟨rfl, rfl⟩

end Kseal.Crypto
