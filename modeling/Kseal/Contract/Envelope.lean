import Kseal.Device.Config
import Kseal.Server.Config

/-!
# The envelope of a configuration

The server signs the bytes of the configuration; the device verifies a message that frames these
bytes with other fields. The two are never the same (`served_config_rejected`).
-/

namespace Kseal.Contract

open Infra Wire List Registry Config

structure KeyPair (sign : Bytes → Bytes → Bytes) (verify : Bytes → Bytes → Bytes → Bool)
    (publicKey privateKey : Bytes) : Prop where
  verifies : ∀ m, verify publicKey m (sign privateKey m) = true
  separates : ∀ m m', m ≠ m' → verify publicKey m' (sign privateKey m) = false

theorem configBytes_ne_preimage (c : SignedConfig) :
    c.configBytes ≠ Device.signedConfigPreimage c.version c.ttlSeconds c.keyId c.configBytes := by
  intro h
  have hlt := Device.length_signedConfigPreimage c.version c.ttlSeconds c.keyId c.configBytes
  rw [← h] at hlt
  exact absurd hlt (Nat.lt_irrefl _)

theorem verifyConfigEnvelope_eq_false {sign : Bytes → Bytes → Bytes}
    {verifyStrict : Bytes → Bytes → Bytes → Bool} {publicKey privateKey : Bytes} {c : SignedConfig}
    (hpair : KeyPair sign verifyStrict publicKey privateKey)
    (hsig : c.signature = sign privateKey c.configBytes) :
    Device.verifyConfigEnvelope (Device.verifyEd25519 verifyStrict) publicKey c = false := by
  unfold Device.verifyConfigEnvelope Device.verifyEd25519
  rw [hsig, hpair.separates _ _ (configBytes_ne_preimage c), Bool.and_false]

/--
**The device rejects every configuration that the server emits.**

The bytes that were signed are not those that are verified, whatever the policy, its version, the
lifetime and the tenant's key.
-/
theorem served_config_rejected {env : Env} {s : Service}
    {store store' : MemStore} {fresh : Fresh} {ctx : Option Server.Principal}
    {ifNoneMatch : String} {m : ConfigRequest} {resp : ConfigResponse} {c : SignedConfig}
    {sk : SigningKey} {verifyStrict : Bytes → Bytes → Bytes → Bool}
    {decode : Bytes → Except String PolicyConfig}
    (hserved : getConfig env s store fresh ctx ifNoneMatch m = .ok (resp, store'))
    (hconfig : resp.config = some c) (hkey : store'.getActiveSigningKey m.tenantId = .ok sk)
    (hpair : KeyPair env.sign verifyStrict sk.publicKey sk.privateKey) (now : Int64) :
    c.signature = env.sign sk.privateKey c.configBytes ∧
      c.configBytes ≠
        Device.signedConfigPreimage c.version c.ttlSeconds c.keyId c.configBytes ∧
      Device.verifyAndDecode (Device.verifyEd25519 verifyStrict) decode c sk.publicKey now =
        .error (.crypto "config signature verification failed") := by
  obtain ⟨policy, sk', hserves⟩ := getConfig_eq_ok hserved hconfig
  -- The key that signed is the tenant's key.
  have hsk : sk' = sk := by
    have hactive := getActiveSigningKey_of_signingKey hserves.key
    rw [hkey] at hactive
    exact (Except.ok.inj hactive).symm
  subst hsk
  refine ⟨hserves.signature, configBytes_ne_preimage c, ?_⟩
  unfold Device.verifyAndDecode
  rw [if_pos (verifyConfigEnvelope_eq_false hpair hserves.signature)]

/-! ## A tenant with one policy -/

namespace Sample

def policy : Policy where
  id := "p1"
  tenantId := "t1"
  appId := "a1"
  name := "baseline"
  version := 3
  enforcementMode := .observe
  rules := "[]"
  riskThresholds := "\x7b\x7d"
  modulesEnabled := []
  isActive := true
  createdAt := 0
  updatedAt := 0

def publicKey : Bytes :=
  [234, 74, 108, 99, 226, 156, 82, 10, 190, 245, 80, 123, 19, 46, 197, 249, 149, 71, 118, 174, 190,
    190, 123, 146, 66, 30, 234, 105, 20, 70, 210, 44]

def privateKey : Bytes := List.replicate 32 7 ++ publicKey

def key : SigningKey where
  id := "k1"
  tenantId := "t1"
  algorithm := "ed25519"
  publicKey := publicKey
  privateKey := privateKey
  isActive := true
  createdAt := 0

def store : MemStore where
  apps := AList.singleton "a1" ⟨"a1", "t1", "com.example"⟩
  policies := AList.singleton "p1" policy
  signing := AList.singleton "k1" key
  sessions := ∅

def digest : Bytes :=
  [53, 208, 15, 222, 193, 230, 196, 24, 63, 201, 205, 150, 99, 96, 165, 84, 49, 140, 98, 48, 42,
    175, 62, 49, 55, 129, 103, 165, 231, 44, 107, 207]

def configBytes : Bytes :=
  [24, 1, 50, 64] ++ ascii "35d00fdec1e6c4183fc9cd966360a554318c62302aaf3e31378167a5e72c6bcf"

def signature : Bytes :=
  [181, 34, 110, 59, 51, 87, 39, 29, 154, 120, 87, 38, 170, 133, 239, 149, 232, 2, 0, 88, 72, 216, 1,
    52, 73, 18, 20, 143, 144, 91, 115, 252, 96, 243, 134, 66, 52, 223, 209, 125, 118, 26, 194, 240,
    118, 226, 94, 29, 217, 12, 96, 237, 181, 90, 174, 99, 94, 243, 77, 42, 157, 90, 231, 11]

def sign (_privateKey message : Bytes) : Bytes :=
  if message = configBytes then signature else 0 :: message

def verifyStrict (_publicKey message sig : Bytes) : Bool := sig == sign [] message

def env : Env where
  parse text :=
    if text = "[]" then some (.arr []) else if text = "\x7b\x7d" then some (.obj []) else none
  sha256 _ := digest
  marshal _ := .ok configBytes
  sign := sign
  seconds d := d / 1000000000

def service : Service := .new 300000000000

def request : ConfigRequest := ⟨"t1", "a1", "i1", "b1"⟩

def principal : Server.Principal := ⟨"t1", "api"⟩

def fresh : Fresh := ⟨([], []), "k2", 0⟩

def config : SignedConfig := ⟨configBytes, signature, "k1", 3, 300⟩

def response : ConfigResponse where
  config := some config
  etag := etagOf (buildPolicyConfig env.parse env.sha256 policy) none
  lastModified := 0
  killSwitch := none
  cacheControl := some "public, max-age=300"

theorem getConfig_eq :
    getConfig env service store fresh (some principal) "" request =
      .ok (response, store) := by
  rfl

theorem sign_injective {m m' : Bytes} (h : m ≠ m') : sign [] m ≠ sign [] m' := by
  unfold sign
  by_cases hm : m = configBytes
  · rw [if_pos hm, if_neg (fun hm' => h (hm.trans hm'.symm))]
    exact fun heq => absurd (head_eq_of_cons_eq heq) (by decide)
  · rw [if_neg hm]
    by_cases hm' : m' = configBytes
    · rw [if_pos hm']
      exact fun heq => absurd (head_eq_of_cons_eq heq) (by decide)
    · rw [if_neg hm']
      exact fun heq => h (tail_eq_of_cons_eq heq)

theorem keyPair : KeyPair sign verifyStrict publicKey privateKey where
  verifies _ := beq_self_eq_true _
  separates _ _ h := beq_eq_false_iff_ne.mpr (sign_injective h)

end Sample

theorem served_config_rejected_sample :
    getConfig Sample.env Sample.service Sample.store Sample.fresh (some Sample.principal) ""
        Sample.request = .ok (Sample.response, Sample.store) ∧
      Device.verifyAndDecode (Device.verifyEd25519 Sample.verifyStrict)
        (fun _ => .ok (buildPolicyConfig Sample.env.parse Sample.env.sha256 Sample.policy))
        Sample.config Sample.publicKey 0 =
        .error (.crypto "config signature verification failed") :=
  ⟨Sample.getConfig_eq, (served_config_rejected Sample.getConfig_eq rfl rfl Sample.keyPair 0).2.2⟩

theorem sample_config_not_verified :
    getConfig Sample.env Sample.service Sample.store Sample.fresh (some Sample.principal) ""
        Sample.request = .ok (Sample.response, Sample.store) ∧
      Sample.response.config = some Sample.config ∧
      Device.verifyEd25519 Sample.verifyStrict Sample.publicKey Sample.config.configBytes
        Sample.config.signature = true ∧
      Device.verifyConfigEnvelope (Device.verifyEd25519 Sample.verifyStrict) Sample.publicKey
        Sample.config = false :=
  ⟨Sample.getConfig_eq, rfl, by decide, verifyConfigEnvelope_eq_false Sample.keyPair rfl⟩

end Kseal.Contract
