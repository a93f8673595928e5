import Kseal.Server.Sealing

/-!
# Slices and indices when opening sealed material (`shared/crypto`)

The functions of `Kseal.Server.Sealing` with every slice and index as a step that panics if it is
out of range. A slice is checked against the length; Go allows for more, up to the capacity.
-/

namespace Kseal.Crypto

open Infra List

inductive Panic where
  | index (i len : Nat)
  | slice (lo hi len : Nat)
  /-- `incorrect nonce length given to GCM` -/
  | nonceLength (len : Nat)
deriving Repr, DecidableEq

inductive Fault where
  | err (e : SealError)
  | panic (p : Panic)
deriving Repr, DecidableEq

namespace Checked

/-! ## The functions with their checks -/

def index (b : Bytes) (i : Nat) : Except Fault UInt8 :=
  match b[i]? with
  | some x => .ok x
  | none => .error (.panic (.index i b.length))

def slice (b : Bytes) (lo hi : Nat) : Except Fault Bytes :=
  if lo ≤ hi ∧ hi ≤ b.length then .ok ((b.drop lo).take (hi - lo))
  else .error (.panic (.slice lo hi b.length))

def hasMagic (magic b : Bytes) : Except Fault Bool :=
  if magic.length ≤ b.length then do
    let first ← slice b 0 4
    pure (first = magic)
  else .ok false

def aeadOpen (gcm : Gcm) (kek nonce ct : Bytes) : Except Fault Bytes :=
  if nonce.length ≠ nonceSize then .error (.panic (.nonceLength nonce.length))
  else (gcm.openText kek nonce ct).mapError fun e => .err (.openFailed e)

def encryptorOpen (gcm : Gcm) (e : Encryptor) (sealedText : Bytes) : Except Fault Bytes :=
  if sealedText.length < nonceSize then .error (.err .sealedTooShort)
  else do
    let nonce ← slice sealedText 0 nonceSize
    let ct ← slice sealedText nonceSize sealedText.length
    aeadOpen gcm e.kek nonce ct

def decodeCMKEnvelope (b : Bytes) : Except Fault (Bytes × Bytes) :=
  if b.length < cmkHeaderLen then .error (.err (.notCMKEnvelope ""))
  else do
    let magic ← hasMagic cmkMagic b
    if magic = false then .error (.err (.notCMKEnvelope ""))
    else
      let version ← index b 4
      if version ≠ cmkVersion then
        .error (.err (.notCMKEnvelope (": unknown version " ++ version.toNat.repr)))
      else
        let lenBytes ← slice b 5 7
        let wrappedLen := ofBe lenBytes
        if b.length < cmkHeaderLen + wrappedLen then
          .error (.err (.cmkDecrypt ": truncated wrapped dek"))
        else
          let wrappedDEK ← slice b cmkHeaderLen (cmkHeaderLen + wrappedLen)
          let ciphertext ← slice b (cmkHeaderLen + wrappedLen) b.length
          if ciphertext.length = 0 then .error (.err (.cmkDecrypt ": empty ciphertext"))
          else pure (wrappedDEK, ciphertext)

def asCmkDecrypt : Fault → Fault
  | .err e => .err (.cmkDecrypt (": " ++ e.message))
  | .panic p => .panic p

def cmkOpenForTenant (m : CMKKeyManager) (platform : Encryptor) (tenantID : String)
    (sealedText : Bytes) : Except Fault Bytes := do
  let (keyURI, enabled) ← (m.kmsKeyURI tenantID).mapError fun e => .err (.resolveTenantCMK e)
  if enabled = false then
    let magic ← hasMagic cmkMagic sealedText
    if magic = true then .error (.err .cmkDisabled)
    else encryptorOpen m.gcm platform sealedText
  else
    let (wrapped, ciphertext) ← decodeCMKEnvelope sealedText
    let dek ← (m.kms.unwrap keyURI wrapped).mapError fun e => .err (.kmsUnwrap e)
    if dek.length ≠ dekSize then
      .error (.err (.cmkDecrypt (": unwrapped dek is " ++ dek.length.repr ++ " bytes")))
    else
      let dekEnc ← (newEncryptor dek).mapError .err
      (encryptorOpen m.gcm dekEnc ciphertext).mapError asCmkDecrypt

def openForTenant (m : DedicatedKeyManager) (platform : Encryptor) (tenantID : String)
    (sealedText : Bytes) : Except Fault Bytes := do
  let enabled ← (m.dedicatedIsolation tenantID).mapError fun e => .err (.resolveTenantIsolation e)
  if enabled = false then
    let magic ← hasMagic dedicatedMagic sealedText
    if magic = true then .error (.err .dedicatedDisabled)
    else cmkOpenForTenant m.fallback platform tenantID sealedText
  else
    let magic ← hasMagic dedicatedMagic sealedText
    if magic = false then .error (.err (.notDedicatedEnvelope ""))
    else
      let version ← index sealedText 4
      if version ≠ dedicatedVersion then
        .error (.err (.notDedicatedEnvelope (": unknown version " ++ version.toNat.repr)))
      else
        let enc ← (m.tenantEncryptor tenantID).mapError .err
        let inner ← slice sealedText dedicatedHeaderLen sealedText.length
        encryptorOpen m.fallback.gcm enc inner

/-! ## What does not panic -/

variable {b : Bytes}

theorem index_eq {i : Nat} (h : i < b.length) : index b i = .ok (b.getD i 0) := by
  unfold index
  rw [getD_eq_getElem?_getD, getElem?_eq_getElem h]
  rfl

variable {lo hi : Nat}

theorem slice_eq (hlo : lo ≤ hi) (hhi : hi ≤ b.length) :
    slice b lo hi = .ok ((b.drop lo).take (hi - lo)) := if_pos ⟨hlo, hhi⟩

theorem slice_from_start (h : hi ≤ b.length) :
    slice b 0 hi = .ok (b.take hi) := slice_eq (Nat.zero_le _) h

theorem slice_to_end (h : lo ≤ b.length) :
    slice b lo b.length = .ok (b.drop lo) := by
  rw [slice_eq h (Nat.le_refl _), take_of_length_le (Nat.le_of_eq length_drop)]

theorem hasMagic_eq {magic : Bytes} (hmagic : magic.length = 4) (b : Bytes) :
    hasMagic magic b = .ok (Crypto.hasMagic magic b) := by
  unfold hasMagic Crypto.hasMagic
  by_cases h : magic.length ≤ b.length
  · rw [if_pos h, slice_from_start (by omega), decide_eq_true h]
    rfl
  · rw [if_neg h, decide_eq_false h, Bool.false_and]

theorem encryptorOpen_eq (gcm : Gcm) (e : Encryptor) (sealedText : Bytes) :
    encryptorOpen gcm e sealedText = (e.open gcm sealedText).mapError .err := by
  unfold encryptorOpen Encryptor.open
  by_cases h : sealedText.length < nonceSize
  · rw [if_pos h, if_pos h]
    rfl
  · have hlen : (sealedText.take nonceSize).length = nonceSize := by
      rw [length_take]
      omega
    rw [if_neg h, if_neg h, slice_from_start (by omega), slice_to_end (by omega), ok_bind, ok_bind,
      aeadOpen, if_neg (not_not.mpr hlen)]
    cases gcm.openText e.kek (sealedText.take nonceSize) (sealedText.drop nonceSize) <;> rfl

/-- **Decoding an envelope never panics.** -/
theorem decodeCMKEnvelope_eq (b : Bytes) :
    decodeCMKEnvelope b = (Crypto.decodeCMKEnvelope b).mapError .err := by
  unfold decodeCMKEnvelope Crypto.decodeCMKEnvelope
  by_cases hshort : b.length < cmkHeaderLen
  · rw [if_pos hshort, if_pos hshort]
    rfl
  · rw [if_neg hshort, if_neg hshort, hasMagic_eq (by decide)]
    unfold cmkHeaderLen at hshort
    show (if hasCMKMagic b = false then _ else _) = _
    split
    · rfl
    · rw [index_eq (by omega), ok_bind]
      split
      · rfl
      · rw [slice_eq (by omega) (by omega), ok_bind]
        dsimp only
        split
        · rfl
        · next hlong =>
          rw [slice_eq (by omega) (by omega), slice_to_end (by omega), ok_bind, ok_bind,
            Nat.add_sub_cancel_left]
          split <;> rfl

theorem asCmkDecrypt_mapError (x : Except SealError Bytes) :
    (x.mapError Fault.err).mapError asCmkDecrypt =
      (x.mapError fun e => SealError.cmkDecrypt (": " ++ e.message)).mapError .err := by
  cases x <;> rfl

/-- **Opening under a customer-managed key never panics**, nor under the key of the platform. -/
theorem cmkOpenForTenant_eq (m : CMKKeyManager) (platform : Encryptor) (tenantID : String)
    (sealedText : Bytes) :
    cmkOpenForTenant m platform tenantID sealedText =
      (({ m with platform := platform.sealer m.gcm } : CMKKeyManager).openForTenant tenantID
        sealedText).mapError .err := by
  unfold cmkOpenForTenant CMKKeyManager.openForTenant
  cases m.kmsKeyURI tenantID with
  | error e => rfl
  | ok answer =>
    obtain ⟨keyURI, enabled⟩ := answer
    cases enabled with
    | false =>
      rw [hasMagic_eq (by decide)]
      show (if hasCMKMagic sealedText = true then _ else _) = _
      split
      · rfl
      · exact encryptorOpen_eq m.gcm platform sealedText
    | true =>
      rw [decodeCMKEnvelope_eq]
      cases Crypto.decodeCMKEnvelope sealedText with
      | error e => rfl
      | ok parts =>
        show ((m.kms.unwrap keyURI parts.1).mapError _ >>= _) = Except.mapError Fault.err
          ((m.kms.unwrap keyURI parts.1).mapError _ >>= _)
        cases m.kms.unwrap keyURI parts.1 with
        | error e => rfl
        | ok dek =>
          show (if dek.length ≠ dekSize then _ else _) = Except.mapError Fault.err
            (if dek.length ≠ dekSize then _ else _)
          split
          · rfl
          · cases newEncryptor dek with
            | error e => rfl
            | ok dekEnc =>
              show (encryptorOpen m.gcm dekEnc parts.2).mapError asCmkDecrypt = _
              rw [encryptorOpen_eq]
              exact asCmkDecrypt_mapError _

theorem length_of_hasDedicatedMagic {b : Bytes} (hmagic : hasDedicatedMagic b = true)
    (hne : b ≠ dedicatedMagic) : 4 < b.length := by
  unfold hasDedicatedMagic Crypto.hasMagic at hmagic
  rw [Bool.and_eq_true, decide_eq_true_iff, decide_eq_true_iff] at hmagic
  obtain ⟨hlen, htake⟩ := hmagic
  by_contra hshort
  rw [take_of_length_le (by omega)] at htake
  exact hne htake

section dedicated

variable {m : DedicatedKeyManager} {platform : Encryptor} {tenantID : String} {sealedText : Bytes}

theorem openForTenant_shared (hshared : m.dedicatedIsolation tenantID = .ok false) :
    openForTenant m platform tenantID sealedText =
      ((m.withFallback (platform.sealer m.fallback.gcm) m.fallback.kms).openForTenant tenantID
        sealedText).mapError .err := by
  unfold openForTenant DedicatedKeyManager.openForTenant DedicatedKeyManager.withFallback
  rw [hshared]
  rw [hasMagic_eq (by decide)]
  show (if hasDedicatedMagic sealedText = true then _ else _) = _
  split
  · rfl
  · exact cmkOpenForTenant_eq m.fallback platform tenantID sealedText

theorem openForTenant_isolated (hisolated : m.dedicatedIsolation tenantID = .ok true)
    (hbare : sealedText ≠ dedicatedMagic) :
    openForTenant m platform tenantID sealedText =
      ((m.withFallback (platform.sealer m.fallback.gcm) m.fallback.kms).openForTenant tenantID
        sealedText).mapError .err := by
  unfold openForTenant DedicatedKeyManager.openForTenant DedicatedKeyManager.withFallback
  rw [hisolated]
  rw [hasMagic_eq (by decide)]
  show (if hasDedicatedMagic sealedText = false then _ else _) = _
  split
  · rfl
  · next hmagic =>
    have hlen := length_of_hasDedicatedMagic (eq_true_of_ne_false hmagic) hbare
    rw [index_eq hlen, getD_eq_getElem?_getD,
      getElem?_eq_getElem hlen]
    show (if sealedText[4] ≠ dedicatedVersion then _ else _) = Except.mapError Fault.err
      (if sealedText[4] ≠ dedicatedVersion then _ else _)
    split
    · rfl
    · show ((m.tenantEncryptor tenantID).mapError _ >>= _) = Except.mapError Fault.err
        (m.tenantEncryptor tenantID >>= _)
      cases m.tenantEncryptor tenantID with
      | error e => rfl
      | ok enc =>
        have hinner : slice sealedText dedicatedHeaderLen sealedText.length =
            .ok (sealedText.drop dedicatedHeaderLen) := slice_to_end hlen
        rw [hinner]
        exact encryptorOpen_eq m.fallback.gcm enc _

theorem openForTenant_bare (hisolated : m.dedicatedIsolation tenantID = .ok true) :
    openForTenant m platform tenantID dedicatedMagic = .error (.panic (.index 4 4)) := by
  unfold openForTenant
  rw [hisolated]
  rfl

end dedicated

/-- **Opening panics on the bare magic of a dedicated envelope**, and on nothing else. -/
theorem openForTenant_eq (m : DedicatedKeyManager) (platform : Encryptor) (tenantID : String)
    (sealedText : Bytes) :
    openForTenant m platform tenantID sealedText =
      if m.dedicatedIsolation tenantID = .ok true ∧ sealedText = dedicatedMagic then
        .error (.panic (.index 4 4))
      else
        ((m.withFallback (platform.sealer m.fallback.gcm) m.fallback.kms).openForTenant tenantID
          sealedText).mapError .err := by
  split
  · next hpanic =>
    rw [hpanic.2]
    exact openForTenant_bare hpanic.1
  · next hreturns =>
    cases hanswer : m.dedicatedIsolation tenantID with
    | error e =>
      unfold openForTenant DedicatedKeyManager.openForTenant DedicatedKeyManager.withFallback
      rw [hanswer]
      rfl
    | ok enabled =>
      cases enabled with
      | false => exact openForTenant_shared hanswer
      | true => exact openForTenant_isolated hanswer fun hbare => hreturns ⟨hanswer, hbare⟩

end Checked

/--
**Opening returns** a value or an error, whatever the tenant's configuration is and whatever the KMS
answers, exactly if it is not the bare magic of a dedicated envelope that a dedicated tenant opens.
-/
theorem open_returns_iff (m : DedicatedKeyManager) (platform : Encryptor) (tenantID : String)
    (sealedText : Bytes) :
    (∀ p, Checked.openForTenant m platform tenantID sealedText ≠ .error (.panic p)) ↔
      ¬ (m.dedicatedIsolation tenantID = .ok true ∧ sealedText = dedicatedMagic) := by
  rw [Checked.openForTenant_eq]
  split
  · next hbare => exact iff_of_false (fun h => h _ rfl) (not_not.mpr hbare)
  · next hbare =>
    refine iff_of_true (fun p h => ?_) hbare
    generalize (m.withFallback (platform.sealer m.fallback.gcm) m.fallback.kms).openForTenant
      tenantID sealedText = result at h
    cases result <;> cases h

theorem bare_magic_panics :
    Checked.openForTenant { sampleManager with dedicatedIsolation := fun _ => .ok true }
      sampleEncryptor "t" (ascii "KSD1") = .error (.panic (.index 4 4)) := rfl

end Kseal.Crypto
