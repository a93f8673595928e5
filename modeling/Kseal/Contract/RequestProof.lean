import Kseal.Device.Proof
import Kseal.Server.Trust

/-!
# The key of a request proof

The server keys a session with a secret derived from the signed token, the device with the instance
key, which was there before (`requestProof_verifies_iff`).
-/

namespace Kseal.Contract

open Infra Wire Registry Trust Device

theorem proofMessage_ne_label (tokenID : String) (requestHash nonce : Bytes) (sequence : Int64) :
    proofMessage tokenID requestHash nonce sequence ≠ proofKeyLabel := by
  intro h
  have hlabel : proofKeyLabel.length = 18 := by decide
  have hlen := congrArg List.length h
  simp only [proofMessage, List.length_append, length_lp, length_i64Be] at hlen
  omega

theorem getRequestProof_setTrustToken (hmac : Bytes → Bytes → Bytes) (sdk : Sdk)
    (tokenId : String) (requestHash nonce : Bytes) :
    (sdk.setTrustToken tokenId).getRequestProof hmac requestHash nonce =
      .ok (generateRequestProof hmac sdk.proofKey tokenId requestHash nonce (sdk.sequence + 1),
        { sdk with trustTokenId := some tokenId, sequence := sdk.sequence + 1 }) :=
  rfl

theorem tag_eq_expectedTag_iff (hmac : Bytes → Bytes → Bytes) (env : Env) (key : Bytes)
    (sess : TrustSession) (tokenId : String) (requestHash nonce : Bytes) (seq : Int64) :
    (generateRequestProof hmac key tokenId requestHash nonce seq).appInstanceSignature =
        expectedTag (env.withHmac hmac) sess tokenId requestHash nonce seq ↔
      hmac key (proofMessage tokenId requestHash nonce seq) =
        hmac sess.sessionSecret (proofMessage tokenId requestHash nonce seq) :=
  Iff.rfl

def revealingHmac (d key message : Bytes) : Bytes :=
  if message = proofKeyLabel then d else key

/--
**When the device's tag is the one the server expects.**

For a response that was accepted, with token id and signed token in it, and an SDK that was given
the token id: whatever `HMAC` derives the session key `d` from the signed token, the tags are
equal exactly if `d` is the instance key.
-/
theorem requestProof_verifies_iff {env : Env} {s : Service}
    {store store' : MemStore} {fresh : Fresh} {m : AttestationRequest}
    {resp : AttestationResponse} {token : TrustToken}
    (hok : verifyAttestation env s store fresh m = .ok (resp, store'))
    (hacc : resp.accepted = true) (htoken : resp.trustToken = some token) (sdk : Sdk)
    (d requestHash nonce : Bytes) :
    (∀ hmac store₁ sess proof sdk', deriveProofKey hmac resp.signedToken = d →
        verifyAttestation (env.withHmac hmac) s store fresh m = .ok (resp, store₁) →
        store₁.getTrustSession m.tenantId token.tokenId = .ok sess →
        (sdk.setTrustToken token.tokenId).getRequestProof hmac requestHash nonce = .ok (proof, sdk') →
        proof.appInstanceSignature = expectedTag (env.withHmac hmac) sess proof.trustTokenId
          proof.requestHash proof.nonce proof.monotonicSequence) ↔
      sdk.proofKey = d := by
  constructor
  · intro hall
    -- Run the attestation with an `HMAC` whose tags are the keys.
    obtain ⟨store₁, token', sess, hrun, htoken', hsess, hsecret⟩ :=
      verifyAttestation_accepted hok hacc (revealingHmac d)
    obtain rfl : token = token' := Option.some.inj (htoken.symm.trans htoken')
    have hderive : deriveProofKey (revealingHmac d) resp.signedToken = d := by
      unfold deriveProofKey revealingHmac
      exact if_pos rfl
    have htag := hall _ _ _ _ _ hderive hrun hsess
      (getRequestProof_setTrustToken _ sdk token.tokenId requestHash nonce)
    have hne := proofMessage_ne_label token.tokenId requestHash nonce (sdk.sequence + 1)
    have hreveal : ∀ key, revealingHmac d key
        (proofMessage token.tokenId requestHash nonce (sdk.sequence + 1)) = key :=
      fun key => if_neg hne
    have hkeys := (tag_eq_expectedTag_iff _ _ _ _ _ _ _ _).mp htag
    rwa [hsecret] at hkeys
  · intro hkey hmac store₁ sess proof sdk' hderive hrun hsess hproof
    obtain ⟨store₂, token', sess', hrun', htoken', hsess', hsecret⟩ :=
      verifyAttestation_accepted hok hacc hmac
    obtain rfl : token = token' := Option.some.inj (htoken.symm.trans htoken')
    rw [hrun'] at hrun
    cases hrun
    obtain rfl : sess' = sess := Except.ok.inj (hsess'.symm.trans hsess)
    rw [getRequestProof_setTrustToken] at hproof
    cases hproof
    refine (tag_eq_expectedTag_iff _ _ _ _ _ _ _ _).mpr ?_
    rw [hsecret, hderive, hkey]

/-! ## A device with a key of its own -/

namespace Sample

def attestation : AttestationRequest where
  tenantId := "t1"
  appId := "a1"
  buildHash := "b1"
  policyHash := ""
  riskBitset := 0
  nonce := [1, 2, 3]
  platformAttestationToken := [4]
  platform := .android
  instanceId := "i1"

def plainHmac (key message : Bytes) : Bytes := key ++ message

def tokenID : String := "6ba7b810-9dad-11d1-80b4-00c04fd430c8"

def trustEnv : Env where
  parse _ := none
  sha256 _ := []
  hmac := plainHmac
  mint _ _ claims := .ok (ascii "header." ++ utf8 claims.id ++ ascii ".signature")
  consumeNonce _ _ _ := .ok true
  verify _ := .ok ⟨true, 0, ""⟩
  fleet := none
  validUUID id := id == tokenID

def trustService : Service := ⟨900, ⟨∅, ∅⟩⟩

def trustFresh : Fresh := ⟨1000, tokenID, "", ([7], [8]), "k1"⟩

def trustStore : MemStore where
  apps := AList.singleton "a1" ⟨"a1", "t1", "com.example"⟩
  policies := ∅
  signing := ∅
  sessions := ∅

def signedToken : Bytes := ascii "header." ++ utf8 tokenID ++ ascii ".signature"

def trustToken : TrustToken :=
  tokenToProto (claimsOf trustEnv trustService trustStore trustFresh attestation 0) []

def attested : AttestationResponse := ⟨some trustToken, signedToken, true, ""⟩

def attestedStore : MemStore where
  apps := trustStore.apps
  policies := ∅
  signing := AList.singleton "k1" ⟨"k1", "t1", "ed25519", [7], [8], true, 1000⟩
  sessions := AList.singleton tokenID
    (sessionOf trustEnv
      (claimsOf trustEnv trustService trustStore trustFresh attestation 0) signedToken)

theorem verifyAttestation_eq :
    verifyAttestation trustEnv trustService trustStore trustFresh attestation =
      .ok (attested, attestedStore) := by
  rfl

def sdk : Sdk := (Sdk.init .missing (List.replicate 32 0) true).1

def sdkWithSessionKey : Sdk := ⟨signedToken ++ proofKeyLabel, none, 0⟩

def session : TrustSession :=
  sessionOf trustEnv
    (claimsOf trustEnv trustService trustStore trustFresh attestation 0) signedToken

def firstProof (sdk : Sdk) : RequestProof :=
  generateRequestProof plainHmac sdk.proofKey tokenID [9] [5] 1

end Sample

theorem requestProof_verifies_sample :
    verifyAttestation Sample.trustEnv Sample.trustService Sample.trustStore Sample.trustFresh
        Sample.attestation = .ok (Sample.attested, Sample.attestedStore) ∧
      (Sample.firstProof Sample.sdkWithSessionKey).appInstanceSignature =
        expectedTag Sample.trustEnv Sample.session Sample.tokenID [9] [5] 1 :=
  ⟨Sample.verifyAttestation_eq,
    (requestProof_verifies_iff Sample.verifyAttestation_eq rfl rfl Sample.sdkWithSessionKey
      (Sample.signedToken ++ proofKeyLabel) [9] [5]).mpr rfl Sample.plainHmac
      Sample.attestedStore Sample.session _ _ rfl rfl rfl rfl⟩

theorem firstProof_denied :
    verifyAttestation Sample.trustEnv Sample.trustService Sample.trustStore Sample.trustFresh
        Sample.attestation = .ok (Sample.attested, Sample.attestedStore) ∧
      Sample.attestedStore.getTrustSession "t1" Sample.tokenID = .ok Sample.session ∧
      (Sample.firstProof Sample.sdk).appInstanceSignature ≠
        expectedTag Sample.trustEnv Sample.session Sample.tokenID [9] [5] 1 ∧
      validateRequestProof Sample.trustEnv Sample.attestedStore 1001 (some ⟨"t1", "api"⟩)
        (Sample.firstProof Sample.sdk) =
        .ok (deny "invalid proof signature", Sample.attestedStore) :=
  ⟨Sample.verifyAttestation_eq, rfl, by decide, rfl⟩

end Kseal.Contract
