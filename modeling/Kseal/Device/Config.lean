import Kseal.Device.Policy
import Kseal.Infra.Framing

/-!
# Signed configurations on the device (`config.rs`, `crypto.rs`)

The Ed25519 check `verify` and the protobuf decoder `decode` are parameters.
-/

namespace Kseal.Device

open Infra Wire

inductive Error where
  | crypto (message : String)
  | decode (message : String)
  | config (message : String)
deriving Repr, DecidableEq

/-! ## The envelope -/

def signedConfigDomain : Bytes := ascii "kseal/v1/signed-config"

def signedConfigPreimage (version ttlSeconds : Int64) (keyId : String) (configBytes : Bytes) :
    Bytes :=
  lp signedConfigDomain ++ i64Be version ++ i64Be ttlSeconds ++ lp (utf8 keyId) ++ lp configBytes

def verifyEd25519 (verifyStrict : Bytes → Bytes → Bytes → Bool) (publicKey message signature : Bytes) :
    Bool :=
  publicKey.length = 32 && signature.length = 64 && verifyStrict publicKey message signature

section config

variable (verify : Bytes → Bytes → Bytes → Bool) (decode : Bytes → Except String PolicyConfig)

def verifyConfigEnvelope (publicKey : Bytes) (signed : SignedConfig) : Bool :=
  verify publicKey
    (signedConfigPreimage signed.version signed.ttlSeconds signed.keyId signed.configBytes)
    signed.signature

structure CachedConfig where
  policy : Policy
  version : Int64
  keyId : String
  loadedAt : Int64
  ttlSeconds : Int64

def maxTtlSeconds : Int64 := 86400

def clamp (x lo hi : Int64) : Int64 := if x < lo then lo else if x > hi then hi else x

def verifyAndDecode (signed : SignedConfig) (publicKey : Bytes) (now : Int64) :
    Except Error CachedConfig :=
  if verifyConfigEnvelope verify publicKey signed = false then
    .error (.crypto "config signature verification failed")
  else
    match decode signed.configBytes with
    | .error e => .error (.decode e)
    | .ok policyConfig =>
      .ok
        { policy := .new policyConfig
          version := signed.version
          keyId := signed.keyId
          loadedAt := now
          ttlSeconds := clamp signed.ttlSeconds 0 maxTtlSeconds }

/-! ## The cache -/

structure ConfigCache where
  current : Option CachedConfig

def ConfigCache.update (cache : ConfigCache) (signed : SignedConfig) (publicKey : Bytes)
    (now : Int64) : Except Error ConfigCache :=
  let install : Except Error ConfigCache :=
    (verifyAndDecode verify decode signed publicKey now).map fun cached => ⟨some cached⟩
  match cache.current with
  | none => install
  | some existing =>
    if signed.version < existing.version then
      .error (.config ("config rollback rejected: incoming version " ++
        toString signed.version.toInt ++ " < cached " ++ toString existing.version.toInt))
    else install

/-! ## What is kept -/

variable {verify decode} {signed : SignedConfig} {publicKey : Bytes} {now : Int64}

theorem verifyAndDecode_eq_ok (now : Int64) {config : PolicyConfig}
    (hverify : verifyConfigEnvelope verify publicKey signed = true)
    (hdecode : decode signed.configBytes = .ok config) :
    ∃ cached, verifyAndDecode verify decode signed publicKey now = .ok cached ∧
      cached.policy = .new config ∧ cached.version = signed.version := by
  unfold verifyAndDecode
  rw [hverify, hdecode]
  exact ⟨_, rfl, rfl, rfl⟩

/-- **A configuration is kept if it verifies and is not older than the one there is.** -/
theorem update_eq_ok_iff {cache cache' : ConfigCache} :
    cache.update verify decode signed publicKey now = .ok cache' ↔
      (∀ existing, cache.current = some existing → existing.version ≤ signed.version) ∧
        ∃ cached, verifyAndDecode verify decode signed publicKey now = .ok cached ∧
          cache' = ⟨some cached⟩ := by
  have hinstall : (verifyAndDecode verify decode signed publicKey now).map
      (fun cached => (⟨some cached⟩ : ConfigCache)) = .ok cache' ↔
      ∃ cached, verifyAndDecode verify decode signed publicKey now = .ok cached ∧
        cache' = ⟨some cached⟩ := by
    cases verifyAndDecode verify decode signed publicKey now with
    | error e => simp [Except.map]
    | ok cached => simp [Except.map, eq_comm]
  unfold ConfigCache.update
  cases hcurrent : cache.current with
  | none => simpa using hinstall
  | some existing =>
    dsimp only
    by_cases hold : signed.version < existing.version
    · rw [if_pos hold]
      simp [Int64.not_le.mpr hold]
    · rw [if_neg hold]
      simpa [Int64.not_lt.mp hold] using hinstall

end config

theorem length_signedConfigPreimage (version ttlSeconds : Int64) (keyId : String)
    (configBytes : Bytes) :
    configBytes.length < (signedConfigPreimage version ttlSeconds keyId configBytes).length := by
  simp only [signedConfigPreimage, List.length_append, length_lp]
  omega

end Kseal.Device
